import Medkit.Lib.Substring

/-! The event stream that a proxy reads from a peer: chunks go to a buffer, the buffer is cut at
blank lines, and each block is parsed into events. -/
namespace Medkit.Gateway.SseStream

open Lib

structure StreamEvent where
  eventType : Str
  data : Str
  id : Str
  peerName : Str
deriving DecidableEq

/-! ## Parsing a block -/

structure Current where
  eventType : Str := []
  data : Str := []
  id : Str := []
  hasData : Bool := false

def Current.event (peer : Str) (current : Current) : List StreamEvent :=
  if current.hasData then
    [{ eventType := if current.eventType = [] then str "message" else current.eventType
       data := current.data
       id := current.id
       peerName := peer }]
  else []

def Current.set (current : Current) (field value : Str) : Current :=
  if field = str "event" then { current with eventType := value }
  else if field = str "data" then
    { current with
      data := current.data ++ (if current.hasData then [10] else []) ++ value
      hasData := true }
  else if field = str "id" then { current with id := value }
  else current

def removeReturn (line : Str) : Str := if line.getLast? = some 13 then line.dropLast else line

/-- The field of a line with its value, from which one space is taken. Comments and lines without a
colon have none. -/
def fieldOf (line : Str) : Option (Str × Str) :=
  if line.head? = some 58 then none
  else if 58 ∈ line then
    let value := (line.dropWhile (· ≠ 58)).tail
    some (line.takeWhile (· ≠ 58), if value.head? = some 32 then value.tail else value)
  else none

def readLine (peer : Str) (state : Current × List StreamEvent) (line : Str) :
    Current × List StreamEvent :=
  if removeReturn line = [] then ({}, state.2 ++ state.1.event peer)
  else
    match fieldOf (removeReturn line) with
    | none => state
    | some (field, value) => (state.1.set field value, state.2)

/-- The lines of a text; a text that ends in a line feed has no line behind it. -/
def getLines (raw : Str) : List Str :=
  let pieces := raw.splitOn 10
  if pieces.getLast? = some [] then pieces.dropLast else pieces

def parseSseData (raw peer : Str) : List StreamEvent :=
  if raw = [] then []
  else
    let state := (getLines raw).foldl (readLine peer) ({}, [])
    -- an event without its blank line
    state.2 ++ state.1.event peer

/-! ## The content receiver -/

/-- The first blank line of the buffer, written either way, with the number of bytes it takes. -/
def findBoundary (buffer : Str) : Option (Nat × Nat) :=
  match findSub (str "\n\n") buffer, findSub (str "\r\n\r\n") buffer with
  | none, none => none
  | some lf, none => some (lf, 2)
  | none, some crlf => some (crlf, 4)
  | some lf, some crlf => if crlf < lf then some (crlf, 4) else some (lf, 2)

def drain (peer : Str) : Nat → Str → List StreamEvent × Str
  | 0, buffer => ([], buffer)
  | n + 1, buffer =>
      match findBoundary buffer with
      | none => ([], buffer)
      | some (boundary, length) =>
          let later := drain peer n (buffer.drop (boundary + length))
          (parseSseData (buffer.take (boundary + 1)) peer ++ later.1, later.2)

def kMaxSSEBufferSize : Nat := 1 * 1024 * 1024

structure Reader where
  buffer : Str := []
  receivedFirstData : Bool := false
  connected : Bool := false
  backoffMs : Nat := 1000
  lastEventId : Str := []
  /-- what the callback was given -/
  delivered : List StreamEvent := []

def Reader.noteData (reader : Reader) : Reader :=
  if reader.receivedFirstData then reader
  else { reader with receivedFirstData := true, connected := true, backoffMs := 1000 }

/-- A chunk of the stream; the connection ends when the buffer is too large. -/
def receive (peer : Str) (reader : Reader) (chunk : Str) : Reader × Bool :=
  let buffer := reader.noteData.buffer ++ chunk
  if kMaxSSEBufferSize < buffer.length then ({ reader.noteData with buffer }, false)
  else
    let drained := drain peer buffer.length buffer
    ({ reader.noteData with
       buffer := drained.2
       lastEventId := drained.1.foldl
         (fun last event => if event.id = [] then last else event.id) reader.noteData.lastEventId
       delivered := reader.noteData.delivered ++ drained.1 }, true)

def readChunks (peer : Str) (reader : Reader) : List Str → Reader × Bool
  | [] => (reader, true)
  | chunk :: chunks =>
      let (reader, goesOn) := receive peer reader chunk
      if goesOn then readChunks peer reader chunks else (reader, false)

/-! ## What a stream means

The rules of server-sent events, on their own: a line without a colon is a field without a value, and
an id with a null byte is passed over. -/

/-- The complete lines of a stream, each ended by a line feed or by both bytes. -/
def sseLines : Str → List Str
  | [] => []
  | 10 :: rest => [] :: sseLines rest
  | 13 :: 10 :: rest => [] :: sseLines rest
  | b :: rest => (sseLines rest).modifyHead (b :: ·)

def splitColon : Str → Option (Str × Str)
  | [] => none
  | 58 :: rest => some ([], rest)
  | b :: rest => (splitColon rest).map fun found => (b :: found.1, found.2)

/-- A comment has an empty name before its colon. -/
def sseField (line : Str) : Option (Str × Str) :=
  match splitColon line with
  | none => some (line, [])
  | some ([], _) => none
  | some (name, 32 :: value) => some (name, value)
  | some (name, value) => some (name, value)

def valuesOf (field : Str → Option (Str × Str)) (name : Str) (block : List Str) : List Str :=
  (block.filterMap field).filterMap fun found => if found.1 = name then some found.2 else none

def eventOf (peer : Str) (data types ids : List Str) : Option StreamEvent :=
  if data = [] then none
  else
    let eventType := types.getLast?.getD []
    some
      { eventType := if eventType = [] then str "message" else eventType
        data := List.intercalate [10] data
        id := ids.getLast?.getD []
        peerName := peer }

/-- The event of a block: the lines of its data, its last type and its last id. -/
def blockEvent (peer : Str) (block : List Str) : Option StreamEvent :=
  eventOf peer (valuesOf sseField (str "data") block) (valuesOf sseField (str "event") block)
    ((valuesOf sseField (str "id") block).filter fun id => 0 ∉ id)

def closedBlocks (stream : Str) : List (List Str) :=
  ((sseLines stream).splitOnP List.isEmpty).dropLast

def sseEvents (peer stream : Str) : List StreamEvent :=
  (closedBlocks stream).filterMap (blockEvent peer)

/-! ## A block is parsed to its events -/

section Blocks

variable {peer : Str}

def parsedEvent (peer : Str) (block : List Str) : Option StreamEvent :=
  eventOf peer (valuesOf fieldOf (str "data") block) (valuesOf fieldOf (str "event") block)
    (valuesOf fieldOf (str "id") block)

def parsedEvents (peer stream : Str) : List StreamEvent :=
  (closedBlocks stream).filterMap (parsedEvent peer)

def blocksOf (lines : List Str) : List (List Str) :=
  (lines.map removeReturn).splitOnP List.isEmpty

/-- What the lines of a block leave in the event that is being built. -/
def summary (block : List Str) : Current where
  eventType := (valuesOf fieldOf (str "event") block).getLast?.getD []
  data := List.intercalate [10] (valuesOf fieldOf (str "data") block)
  id := (valuesOf fieldOf (str "id") block).getLast?.getD []
  hasData := valuesOf fieldOf (str "data") block ≠ []

theorem event_summary (block : List Str) :
    (summary block).event peer = (parsedEvent peer block).toList := by
  by_cases h : valuesOf fieldOf (str "data") block = [] <;>
    simp [Current.event, summary, parsedEvent, eventOf, h]

theorem intercalate_concat (sep x : Str) (xs : List Str) :
    List.intercalate sep (xs ++ [x]) =
      List.intercalate sep xs ++ (if xs = [] then [] else sep) ++ x := by
  induction xs with
  | nil => simp [List.intercalate]
  | cons y ys ih =>
    cases ys with
    | nil => simp [List.intercalate]
    | cons z zs =>
      simp only [List.intercalate, List.cons_append, List.intersperse_cons_cons,
        List.flatten_cons, List.append_assoc] at ih ⊢
      rw [ih]
      simp

theorem valuesOf_concat (name line : Str) (block : List Str) :
    valuesOf fieldOf name (block ++ [line]) = valuesOf fieldOf name block ++
      ((fieldOf line).bind fun field => if field.1 = name then some field.2 else none).toList := by
  unfold valuesOf
  rw [List.filterMap_append, List.filterMap_append]
  cases hfield : fieldOf line with
  | none => simp [hfield]
  | some field =>
    simp only [List.filterMap_cons, hfield, List.filterMap_nil, Option.bind_some]
    split <;> simp [*]

theorem summary_concat (line : Str) (block : List Str) :
    summary (block ++ [line]) =
      match fieldOf line with
      | none => summary block
      | some (field, value) => (summary block).set field value := by
  cases hfield : fieldOf line with
  | none => simp [summary, valuesOf_concat, hfield]
  | some found =>
    obtain ⟨field, value⟩ := found
    have hne : str "data" ≠ str "event" ∧ str "id" ≠ str "event" ∧ str "id" ≠ str "data" := by
      decide
    simp only [summary, Current.set, valuesOf_concat, hfield, Option.bind_some]
    by_cases hevent : field = str "event"
    · simp [hevent, hne.1.symm, hne.2.1.symm]
    · by_cases hdata : field = str "data"
      · simp [hdata, hne.1, hne.2.2.symm, intercalate_concat]
      · by_cases hid : field = str "id"
        · simp [hid, hne.2.1, hne.2.2]
        · simp [hevent, hdata, hid]

theorem blocksOf_cons (line : Str) (lines : List Str) :
    blocksOf (line :: lines) =
      if removeReturn line = [] then [] :: blocksOf lines
      else (blocksOf lines).modifyHead (removeReturn line :: ·) := by
  rw [blocksOf, List.map_cons, List.splitOnP_cons_eq_if_modifyHead]
  simp only [List.isEmpty_iff]
  rfl

/-- The invariant of the parser: the current event is the summary of the lines since the last blank
one. -/
theorem foldl_readLine (lines block : List Str) (events : List StreamEvent) :
    let state := lines.foldl (readLine peer) (summary block, events)
    state.2 ++ state.1.event peer =
      events ++ ((blocksOf lines).modifyHead (block ++ ·)).filterMap (parsedEvent peer) := by
  induction lines generalizing block events with
  | nil =>
    show events ++ (summary block).event peer =
      events ++ [block ++ []].filterMap (parsedEvent peer)
    rw [event_summary, List.append_nil]
    cases h : parsedEvent peer block <;> simp [h]
  | cons line lines ih =>
    rw [List.foldl_cons, blocksOf_cons, readLine]
    split
    · refine (ih [] (events ++ (summary block).event peer)).trans ?_
      have hid : (blocksOf lines).modifyHead (([] : List Str) ++ ·) = blocksOf lines := by
        cases blocksOf lines <;> rfl
      rw [hid, event_summary, List.modifyHead_cons, List.append_nil, List.filterMap_cons,
        List.append_assoc]
      cases parsedEvent peer block <;> rfl
    · have hnext := ih (block ++ [removeReturn line]) events
      rw [summary_concat] at hnext
      rw [List.modifyHead_modifyHead]
      simp only [List.append_assoc, List.singleton_append] at hnext
      refine Eq.trans ?_ hnext
      cases fieldOf (removeReturn line) <;> rfl

theorem parseSseData_eq {raw : Str} (hne : raw ≠ []) :
    parseSseData raw peer = (blocksOf (getLines raw)).filterMap (parsedEvent peer) := by
  rw [parseSseData, if_neg hne]
  refine (foldl_readLine (getLines raw) [] []).trans ?_
  cases blocksOf (getLines raw) <;> rfl

/-! ## Boundaries -/

def boundaries : List Str := [str "\n\n", str "\r\n\r\n"]

theorem splitOn_concat {b : Byte} (hb : b ≠ 10) (front : Str) :
    ∃ pieces last, (front ++ [b]).splitOn 10 = pieces ++ [last ++ [b]] := by
  induction front with
  | nil => exact ⟨[], [], by simp [List.splitOn, List.splitOnP_cons_eq_if_modifyHead, hb]⟩
  | cons c front ih =>
    obtain ⟨pieces, last, h⟩ := ih
    rw [List.splitOn] at h ⊢
    rw [List.cons_append, List.splitOnP_cons_eq_if_modifyHead, h]
    split
    · exact ⟨[] :: pieces, last, rfl⟩
    · cases pieces with
      | nil => exact ⟨[], c :: last, rfl⟩
      | cons piece pieces => exact ⟨(c :: piece) :: pieces, last, rfl⟩

theorem splitOn_append_line (front rest : Str) :
    (front ++ 10 :: rest).splitOn 10 = front.splitOn 10 ++ rest.splitOn 10 := by
  rw [List.splitOn, List.splitOnP_append_cons _ _ (by simp)]
  rfl

theorem dropLast_splitOn_line (line rest : Str) : ((line ++ 10 :: rest).splitOn 10).dropLast =
    line.splitOn 10 ++ (rest.splitOn 10).dropLast := by
  rw [splitOn_append_line]
  exact List.dropLast_append_of_ne_nil (List.splitOnP_ne_nil _ _)

theorem removeReturn_cons {b : Byte} {line : Str} (h : b = 13 → line ≠ []) :
    removeReturn (b :: line) = b :: removeReturn line := by
  cases line with
  | nil =>
    have hb : b ≠ 13 := fun hb => h hb rfl
    simp [removeReturn, hb]
  | cons c line =>
    rw [removeReturn, removeReturn, List.getLast?_cons_cons]
    split <;> rfl

theorem sseLines_eq (s : Str) : sseLines s = (s.splitOn 10).dropLast.map removeReturn := by
  fun_induction sseLines s with
  | case1 => rfl
  | case2 rest ih =>
    rw [ih]
    exact congrArg (List.map removeReturn) (dropLast_splitOn_line [] rest).symm
  | case3 rest ih =>
    rw [ih]
    exact congrArg (List.map removeReturn) (dropLast_splitOn_line [13] rest).symm
  | case4 b rest hlf hcrlf ih =>
    have hsplit : (b :: rest).splitOn 10 = (rest.splitOn 10).modifyHead (b :: ·) := by
      rw [List.splitOn, List.splitOnP_cons_eq_if_modifyHead, if_neg (by simpa using hlf)]
      rfl
    rw [ih, hsplit]
    cases hrest : rest.splitOn 10 with
    | nil => exact absurd hrest (List.splitOnP_ne_nil _ _)
    | cons line lines =>
      cases lines with
      | nil => rfl
      | cons next lines =>
        have hline : b = 13 → line ≠ [] := by
          rintro rfl rfl
          cases rest with
          | nil => simp [List.splitOn] at hrest
          | cons c rest =>
            by_cases hc : c = 10
            · exact hcrlf rest rfl (hc ▸ rfl)
            · rw [List.splitOn, List.splitOnP_cons_eq_if_modifyHead, if_neg (by simpa using hc)] at hrest
              cases hpieces : rest.splitOnP (· == 10) <;> simp [hpieces] at hrest
        simp only [List.modifyHead_cons, List.dropLast_cons_cons, List.map_cons, removeReturn_cons hline]

/-- The lines of a block and a blank line are all complete lines up to the end of the boundary. -/
theorem lines_boundary (front rest : Str) {boundary : Str} (h : boundary ∈ boundaries) :
    ∃ blank, removeReturn blank = [] ∧
      ((front ++ boundary ++ rest).splitOn 10).dropLast =
        getLines (front ++ boundary.take 1) ++ blank :: (rest.splitOn 10).dropLast := by
  have hsplit (front blank : Str) : ((front ++ 10 :: (blank ++ 10 :: rest)).splitOn 10).dropLast =
      front.splitOn 10 ++ (blank.splitOn 10 ++ (rest.splitOn 10).dropLast) := by
    rw [dropLast_splitOn_line, dropLast_splitOn_line]
  simp only [boundaries, List.mem_cons, List.not_mem_nil, or_false] at h
  rcases h with rfl | rfl
  · refine ⟨[], rfl, ?_⟩
    have hlines : getLines (front ++ [10]) = front.splitOn 10 := by
      rw [getLines, splitOn_append_line]
      simp [List.splitOn]
    rw [List.append_assoc]
    exact (hsplit front []).trans (congrArg (· ++ _) hlines.symm)
  · refine ⟨[13], rfl, ?_⟩
    have hlines : getLines (front ++ [13]) = (front ++ [13]).splitOn 10 := by
      obtain ⟨pieces, last, hpieces⟩ := splitOn_concat (b := 13) (by decide) front
      rw [getLines, hpieces]
      simp
    have hfront := hsplit (front ++ [13]) [13]
    rw [List.append_assoc] at hfront ⊢
    exact hfront.trans (congrArg (· ++ _) hlines.symm)

theorem closedBlocks_boundary (front rest : Str) {boundary : Str} (h : boundary ∈ boundaries) :
    closedBlocks (front ++ boundary ++ rest) =
      blocksOf (getLines (front ++ boundary.take 1)) ++ closedBlocks rest := by
  obtain ⟨blank, hblank, hlines⟩ := lines_boundary front rest h
  rw [closedBlocks, closedBlocks, sseLines_eq, sseLines_eq, hlines, List.map_append, List.map_cons,
    List.splitOnP_append_cons _ _ (by rw [hblank]; rfl),
    List.dropLast_append_of_ne_nil (List.splitOnP_ne_nil _ _)]
  rfl

theorem parsedEvents_boundary (front rest : Str) {boundary : Str} (h : boundary ∈ boundaries) :
    parsedEvents peer (front ++ boundary ++ rest) =
      parseSseData (front ++ boundary.take 1) peer ++ parsedEvents peer rest := by
  have htake : ∀ boundary ∈ boundaries, boundary.take 1 ≠ [] := by decide
  have hblock := List.append_ne_nil_of_right_ne_nil front (htake boundary h)
  rw [parsedEvents, closedBlocks_boundary _ _ h, List.filterMap_append, parseSseData_eq hblock]
  rfl

end Blocks

/-! ## Cutting a buffer -/

def cut : Str → Option (Str × Str)
  | [] => none
  | 10 :: 10 :: rest => some ([10], rest)
  | 13 :: 10 :: 13 :: 10 :: rest => some ([13], rest)
  | b :: rest => (cut rest).map fun found => (b :: found.1, found.2)

theorem findSub_cons_of_not {needle : Str} {b : Byte} {rest : Str}
    (h : ∀ back, needle ++ back ≠ b :: rest) :
    findSub needle (b :: rest) = (findSub needle rest).map (· + 1) := by
  rw [findSub, if_neg]
  intro hstart
  obtain ⟨back, hback⟩ := List.isPrefixOf_iff_prefix.mp hstart
  exact h back hback

theorem findBoundary_eq_cut (buffer : Str) : (findBoundary buffer).map (fun found =>
      (buffer.take (found.1 + 1), buffer.drop (found.1 + found.2))) = cut buffer := by
  fun_induction cut buffer with
  | case1 => rfl
  | case2 rest =>
    have hlf : findSub (str "\n\n") (10 :: 10 :: rest) = some 0 := rfl
    have hcrlf : findSub (str "\r\n\r\n") (10 :: 10 :: rest) =
        (findSub (str "\r\n\r\n") (10 :: rest)).map (· + 1) := rfl
    rw [findBoundary, hlf, hcrlf]
    cases findSub (str "\r\n\r\n") (10 :: rest) <;> rfl
  | case3 rest =>
    have hlf : findSub (str "\n\n") (13 :: 10 :: 13 :: 10 :: rest) =
        (findSub (str "\n\n") (10 :: 13 :: 10 :: rest)).map (· + 1) := rfl
    have hcrlf : findSub (str "\r\n\r\n") (13 :: 10 :: 13 :: 10 :: rest) = some 0 := rfl
    rw [findBoundary, hlf, hcrlf]
    cases findSub (str "\n\n") (10 :: 13 :: 10 :: rest) <;> rfl
  | case4 b rest hlf hcrlf ih =>
    have hshift : findBoundary (b :: rest) =
        (findBoundary rest).map fun found => (found.1 + 1, found.2) := by
      rw [findBoundary, findSub_cons_of_not, findSub_cons_of_not, findBoundary]
      · cases findSub (str "\n\n") rest <;> cases findSub (str "\r\n\r\n") rest
        case some.some lf crlf =>
          by_cases hlt : crlf < lf <;> simp [hlt]
        all_goals rfl
      · intro back hback
        obtain ⟨rfl, rfl⟩ := List.cons.inj hback
        exact hcrlf back rfl rfl
      · intro back hback
        obtain ⟨rfl, rfl⟩ := List.cons.inj hback
        exact hlf back rfl rfl
    rw [hshift, ← ih, Option.map_map, Option.map_map]
    congr 1
    funext found
    simp [Nat.add_right_comm]

theorem cut_append {buffer block rest : Str} (h : cut buffer = some (block, rest)) (more : Str) :
    cut (buffer ++ more) = some (block, rest ++ more) := by
  fun_induction cut buffer generalizing block with
  | case1 => cases h
  | case2 rest | case3 rest =>
    cases h
    rfl
  | case4 b later hlf hcrlf ih =>
    obtain ⟨⟨block', rest'⟩, hcut, heq⟩ := Option.map_eq_some_iff.mp h
    cases heq
    rw [List.cons_append, cut, ih hcut]
    · rfl
    -- what is behind this byte holds a boundary, so it is long enough to tell that none is here
    · intro back hb hback
      cases later with
      | nil => cases hcut
      | cons c later =>
        obtain ⟨rfl, -⟩ := List.cons.inj hback
        exact hlf later hb rfl
    · intro back hb hback
      rcases later with _ | ⟨c, _ | ⟨d, _ | ⟨e, later⟩⟩⟩
      · cases hcut
      · obtain ⟨rfl, -⟩ := List.cons.inj hback
        cases hcut
      · obtain ⟨hc, hd, -⟩ : c = 10 ∧ d = 13 ∧ _ := by simpa using hback
        rw [hc, hd] at hcut
        cases hcut
      · obtain ⟨rfl, rfl, rfl, -⟩ : c = 10 ∧ d = 13 ∧ e = 10 ∧ _ := by simpa using hback
        exact hcrlf later hb rfl

theorem cut_spec {buffer block rest : Str} (h : cut buffer = some (block, rest)) :
    ∃ front, ∃ boundary ∈ boundaries, block = front ++ boundary.take 1 ∧
      buffer = front ++ boundary ++ rest := by
  fun_induction cut buffer generalizing block with
  | case1 => cases h
  | case2 rest =>
    cases h
    exact ⟨[], str "\n\n", by decide, rfl, rfl⟩
  | case3 rest =>
    cases h
    exact ⟨[], str "\r\n\r\n", by decide, rfl, rfl⟩
  | case4 b rest hlf hcrlf ih =>
    obtain ⟨⟨block', rest'⟩, hcut, heq⟩ := Option.map_eq_some_iff.mp h
    cases heq
    obtain ⟨front, boundary, hboundary, rfl, rfl⟩ := ih hcut
    exact ⟨b :: front, boundary, hboundary, rfl, rfl⟩

theorem cut_ne_none {buffer boundary : Str} (h : boundary ∈ boundaries)
    (hsuffix : boundary <:+ buffer) : cut buffer ≠ none := by
  obtain ⟨front, rfl⟩ := hsuffix
  induction front with
  | nil =>
    have hcut : ∀ boundary ∈ boundaries, cut boundary ≠ none := by decide
    exact hcut boundary h
  | cons b front ih =>
    generalize hbuffer : b :: front ++ boundary = buffer
    fun_cases cut buffer with
    | case1 => cases hbuffer
    | case2 rest | case3 rest => simp
    | case4 c rest hlf hcrlf =>
      obtain ⟨rfl, rfl⟩ := List.cons.inj hbuffer
      simpa using ih

/-! ## The run -/

/-- Cutting a text block by block gives these events and leaves this rest. -/
inductive Drains (peer : Str) : Str → List StreamEvent → Str → Prop
  | done {s : Str} : cut s = none → Drains peer s [] s
  | block {s block rest left : Str} {events : List StreamEvent} : cut s = some (block, rest) →
      Drains peer rest events left → Drains peer s (parseSseData block peer ++ events) left

namespace Drains

variable {peer s t left left' : Str} {events events' : List StreamEvent}

theorem unique (h : Drains peer s events left) (h' : Drains peer s events' left') :
    events = events' ∧ left = left' := by
  induction h generalizing events' left' with
  | done hnone =>
    cases h' with
    | done => exact ⟨rfl, rfl⟩
    | block hsome =>
      rw [hnone] at hsome
      cases hsome
  | block hsome _ ih =>
    cases h' with
    | done hnone =>
      rw [hnone] at hsome
      cases hsome
    | block hsome' hrest =>
      rw [hsome] at hsome'
      cases hsome'
      obtain ⟨rfl, rfl⟩ := ih hrest
      exact ⟨rfl, rfl⟩

theorem append (h : Drains peer s events left) (h' : Drains peer (left ++ t) events' left') :
    Drains peer (s ++ t) (events ++ events') left' := by
  induction h with
  | done => exact h'
  | block hcut _ ih =>
    rw [List.append_assoc]
    exact .block (cut_append hcut t) (ih h')

theorem parsedEvents_eq (h : Drains peer s events left) :
    parsedEvents peer s = events ++ parsedEvents peer left := by
  induction h with
  | done => rfl
  | block hcut _ ih =>
    obtain ⟨front, boundary, hboundary, rfl, rfl⟩ := cut_spec hcut
    rw [parsedEvents_boundary _ _ hboundary, ih, List.append_assoc]

theorem cut_left (h : Drains peer s events left) : cut left = none := by
  induction h with
  | done hnone => exact hnone
  | block _ _ ih => exact ih

end Drains

def EndsEvents (front : Str) : Prop :=
  front = [] ∨ ∃ boundary ∈ boundaries, boundary <:+ front

variable {peer s : Str} {events : List StreamEvent}

theorem Drains.left_spec {left : Str} (h : Drains peer s events left) :
    ∃ front, s = front ++ left ∧ EndsEvents front := by
  induction h with
  | done => exact ⟨[], rfl, .inl rfl⟩
  | block hcut _ ih =>
    obtain ⟨front, boundary, hboundary, -, rfl⟩ := cut_spec hcut
    obtain ⟨later, rfl, hlater⟩ := ih
    refine ⟨front ++ boundary ++ later, by simp, .inr ?_⟩
    rcases hlater with rfl | ⟨other, hother, hsuffix⟩
    · exact ⟨boundary, hboundary, by simp⟩
    · exact ⟨other, hother, hsuffix.trans (List.suffix_append _ _)⟩

theorem drains_drain (peer : Str) {n : Nat} (hn : s.length ≤ n) :
    Drains peer s (drain peer n s).1 (drain peer n s).2 := by
  induction n generalizing s with
  | zero =>
    obtain rfl := List.length_eq_zero_iff.mp (Nat.le_zero.mp hn)
    exact .done rfl
  | succ n ih =>
    have hcut := findBoundary_eq_cut s
    rw [drain]
    split
    · rename_i hnone
      rw [hnone] at hcut
      exact .done hcut.symm
    · rename_i boundary length hsome
      rw [hsome] at hcut
      refine .block hcut.symm (ih ?_)
      obtain ⟨front, end', hend, -, hs⟩ := cut_spec hcut.symm
      have hlength := congrArg List.length hs
      have hpos : ∀ boundary ∈ boundaries, 0 < boundary.length := by decide
      have := hpos end' hend
      simp only [List.length_append] at hlength ⊢
      omega

theorem drains_receive {chunk : Str} {reader : Reader}
    (hreader : Drains peer s reader.delivered reader.buffer)
    (hread : (receive peer reader chunk).2 = true) :
    Drains peer (s ++ chunk) (receive peer reader chunk).1.delivered
      (receive peer reader chunk).1.buffer := by
  have hsame : reader.noteData.buffer = reader.buffer ∧
      reader.noteData.delivered = reader.delivered := by
    unfold Reader.noteData
    split <;> exact ⟨rfl, rfl⟩
  simp only [receive, hsame] at hread ⊢
  split at hread
  · cases hread
  · rename_i hsize
    rw [if_neg hsize]
    exact hreader.append (drains_drain peer (Nat.le_refl _))

theorem drains_readChunks {chunks : List Str} {reader : Reader}
    (hreader : Drains peer s reader.delivered reader.buffer)
    (hread : (readChunks peer reader chunks).2 = true) :
    Drains peer (s ++ chunks.flatten) (readChunks peer reader chunks).1.delivered
      (readChunks peer reader chunks).1.buffer := by
  induction chunks generalizing reader s with
  | nil => simpa [readChunks] using hreader
  | cons chunk chunks ih =>
    rw [readChunks] at hread ⊢
    rw [List.flatten_cons, ← List.append_assoc]
    by_cases hgoes : (receive peer reader chunk).2 = true
    · simp only [hgoes, if_true] at hread ⊢
      exact ih (drains_receive hreader hgoes) hread
    · simp [hgoes] at hread

theorem filterMap_closedBlocks_append (f : List Str → Option StreamEvent) {front : Str} (rest : Str)
    (hends : EndsEvents front) : (closedBlocks (front ++ rest)).filterMap f =
      (closedBlocks front).filterMap f ++ (closedBlocks rest).filterMap f := by
  rcases hends with rfl | ⟨boundary, hboundary, before, rfl⟩
  · rfl
  · have hfront := closedBlocks_boundary before [] hboundary
    rw [List.append_nil, show closedBlocks [] = [] from rfl, List.append_nil] at hfront
    rw [closedBlocks_boundary _ _ hboundary, hfront, List.filterMap_append]

/-- What is left of a text that ends in a boundary is a piece of that boundary. -/
theorem parsedEvents_left {front left : Str} (hends : EndsEvents front)
    (h : Drains peer front events left) : parsedEvents peer left = [] := by
  obtain ⟨before, hfront, -⟩ := h.left_spec
  have hleft : left <:+ front := ⟨before, hfront.symm⟩
  rcases hends with rfl | ⟨boundary, hboundary, hsuffix⟩
  · rw [List.suffix_nil.mp hleft]
    rfl
  · rcases List.suffix_or_suffix_of_suffix hleft hsuffix with hpiece | hwhole
    · have hpieces : ∀ boundary ∈ boundaries, ∀ piece ∈ boundary.tails,
          parsedEvents peer piece = [] := by
        simp only [boundaries, List.forall_mem_cons]
        refine ⟨?_, ?_, by simp⟩
        · show ∀ piece ∈ [[10, 10], [10], []], _
          simp only [List.forall_mem_cons]
          exact ⟨rfl, rfl, rfl, by simp⟩
        · show ∀ piece ∈ [[13, 10, 13, 10], [10, 13, 10], [13, 10], [10], []], _
          simp only [List.forall_mem_cons]
          exact ⟨rfl, rfl, rfl, rfl, rfl, by simp⟩
      exact hpieces boundary hboundary left ((List.mem_tails _ _).mpr hpiece)
    · exact absurd h.cut_left (cut_ne_none hboundary hwhole)

/-- The events delivered are those parsed from the text before some boundary; if nothing is parsed
behind a boundary, they are those parsed from the text before it. -/
theorem Drains.events_eq {stream left : Str} (h : Drains peer stream events left) :
    (∃ front rest, stream = front ++ rest ∧ EndsEvents front ∧ events = parsedEvents peer front) ∧
      ∀ front rest, stream = front ++ rest → EndsEvents front → parsedEvents peer rest = [] →
        events = parsedEvents peer front := by
  have happend : ∀ {front} (rest), EndsEvents front →
      parsedEvents peer (front ++ rest) = parsedEvents peer front ++ parsedEvents peer rest :=
    filterMap_closedBlocks_append _
  constructor
  · obtain ⟨front, rfl, hends⟩ := h.left_spec
    refine ⟨front, left, rfl, hends, ?_⟩
    exact List.append_cancel_right (h.parsedEvents_eq.symm.trans (happend left hends))
  · rintro front rest rfl hends hrest
    -- reading the stream in two chunks, the first one brings all events there are
    have hfront := drains_drain peer (Nat.le_refl front.length)
    have hwhole := hfront.append
      (drains_drain peer (Nat.le_refl ((drain peer front.length front).2 ++ rest).length))
    obtain ⟨rfl, rfl⟩ := h.unique hwhole
    have hmore := hwhole.parsedEvents_eq
    rw [happend rest hends, hrest, hfront.parsedEvents_eq, parsedEvents_left hends hfront,
      List.append_nil, List.append_nil, List.append_assoc] at hmore
    rw [hfront.parsedEvents_eq, parsedEvents_left hends hfront,
      (List.append_eq_nil_iff.mp (List.append_right_eq_self.mp hmore.symm)).1]

/-! ## The field rules -/

theorem splitColon_eq (line : Str) : splitColon line =
    if 58 ∈ line then some (line.takeWhile (· ≠ 58), (line.dropWhile (· ≠ 58)).tail) else none := by
  fun_induction splitColon line with
  | case1 => rfl
  | case2 rest => simp
  | case3 b rest hb ih =>
    have hb : b ≠ 58 := hb
    rw [ih]
    by_cases hmem : 58 ∈ rest <;> simp [hmem, hb, Ne.symm hb]

/-- The parser reads the lines with a colon by the rules, and only those. -/
theorem fieldOf_eq (line : Str) : fieldOf line = if 58 ∈ line then sseField line else none := by
  unfold fieldOf sseField
  rw [splitColon_eq]
  cases line with
  | nil => rfl
  | cons b rest =>
    by_cases hb : b = 58
    · simp [hb]
    · by_cases hmem : 58 ∈ rest
      · simp only [List.head?_cons, Option.some.injEq, hb, List.mem_cons, hmem, or_true,
          List.takeWhile_cons, List.dropWhile_cons, ne_eq, not_false_eq_true, decide_true, if_true,
          if_false]
        cases (rest.dropWhile (· ≠ 58)).tail with
        | nil => rfl
        | cons c value => by_cases hc : c = 32 <;> simp [hc]
      · simp [hb, hmem, Ne.symm hb]

theorem valuesOf_fieldOf (name : Str) (block : List Str) :
    valuesOf fieldOf name block = valuesOf sseField name (block.filter (58 ∈ ·)) := by
  rw [valuesOf, valuesOf, List.filterMap_filter]
  simp only [decide_eq_true_eq, ← fieldOf_eq]

/-- By the rules the block has no event, or its event is the same without the lines that have no
colon, the last id among the other lines being without a null byte. -/
def ReadAlike (peer : Str) (block : List Str) : Prop :=
  (blockEvent peer block).isSome →
    blockEvent peer (block.filter (58 ∈ ·)) = blockEvent peer block ∧
      ∀ id ∈ (valuesOf sseField (str "id") (block.filter (58 ∈ ·))).getLast?, 0 ∉ id

theorem isSome_eventOf {data types ids : List Str} :
    (eventOf peer data types ids).isSome ↔ data ≠ [] := by
  unfold eventOf
  split <;> simp [*]

theorem isSome_blockEvent {block : List Str} (h : (parsedEvent peer block).isSome) :
    (blockEvent peer block).isSome := by
  rw [parsedEvent, isSome_eventOf, valuesOf_fieldOf] at h
  rw [blockEvent, isSome_eventOf]
  refine fun hnil => h (List.sublist_nil.mp (hnil ▸ ?_))
  exact ((List.filter_sublist (p := fun line => decide (58 ∈ line))).filterMap _).filterMap _

theorem getLast?_filter {p : Str → Bool} {l : List Str} (h : ∀ x ∈ l.getLast?, p x = true) :
    (l.filter p).getLast? = l.getLast? := by
  rcases List.eq_nil_or_concat l with rfl | ⟨init, x, rfl⟩
  · rfl
  · have hx : p x = true := h x (by simp)
    simp [hx]

theorem parsedEvent_eq_iff (peer : Str) (block : List Str) :
    parsedEvent peer block = blockEvent peer block ↔ ReadAlike peer block := by
  by_cases hparsed : (parsedEvent peer block).isSome
  · have hread := isSome_blockEvent hparsed
    have hsame : (∀ id ∈ (valuesOf sseField (str "id") (block.filter (58 ∈ ·))).getLast?, 0 ∉ id) →
        blockEvent peer (block.filter (58 ∈ ·)) = parsedEvent peer block := by
      intro hid
      rw [parsedEvent, blockEvent, eventOf, eventOf, getLast?_filter (by simpa using hid)]
      simp only [valuesOf_fieldOf]
    constructor
    · intro h _
      have hid : ∀ id ∈ (valuesOf sseField (str "id") (block.filter (58 ∈ ·))).getLast?, 0 ∉ id := by
        intro id hlast
        have hids := congrArg (Option.map StreamEvent.id) h
        rw [parsedEvent, isSome_eventOf, valuesOf_fieldOf] at hparsed
        rw [blockEvent, isSome_eventOf] at hread
        simp only [parsedEvent, blockEvent, eventOf, if_neg hparsed, if_neg hread, valuesOf_fieldOf,
          Option.mem_def.mp hlast, Option.map_some, Option.getD_some, Option.some.injEq] at hids
        rw [hids]
        cases hkept : (List.filter (fun id => decide (0 ∉ id))
          (valuesOf sseField (str "id") block)).getLast? with
        | none => exact List.not_mem_nil
        | some kept => simpa using (List.mem_filter.mp (List.mem_of_getLast? hkept)).2
      exact ⟨(hsame hid).trans h, hid⟩
    · intro h
      exact (hsame (h hread).2).symm.trans (h hread).1
  · rw [Option.not_isSome_iff_eq_none] at hparsed
    have hcolon : blockEvent peer (block.filter (58 ∈ ·)) = none := by
      rw [← Option.not_isSome_iff_eq_none, parsedEvent, isSome_eventOf, valuesOf_fieldOf] at hparsed
      rwa [← Option.not_isSome_iff_eq_none, blockEvent, isSome_eventOf]
    rw [hparsed, ReadAlike, hcolon]
    cases blockEvent peer block <;> simp

theorem filterMap_eq_append_iff {α β : Type} {f g : α → Option β} {l : List α} {more : List β}
    (h : ∀ a, (f a).isSome → (g a).isSome) :
    l.filterMap f = l.filterMap g ++ more ↔ more = [] ∧ ∀ a ∈ l, f a = g a := by
  induction l with
  | nil => simp [eq_comm]
  | cons a l ih =>
    have hlength : (l.filterMap f).length ≤ (l.filterMap g).length := by
      rw [List.length_filterMap_eq_countP, List.length_filterMap_eq_countP]
      exact List.countP_mono_left fun a _ => h a
    cases hf : f a with
    | none =>
      cases hg : g a with
      | none => simp [hf, hg, ih]
      | some y =>
        refine iff_of_false (fun heq => ?_) (by simp [hf, hg])
        have := congrArg List.length heq
        simp [hf, hg] at this
        omega
    | some x =>
      obtain ⟨y, hg⟩ := Option.isSome_iff_exists.mp (h a (by rw [hf]; rfl))
      simp [hf, hg, ih, and_left_comm]

/-- The stream has a place, at its beginning or behind a boundary, with no complete event behind it,
and the blocks before it are read alike. -/
def HeardAlike (peer stream : Str) : Prop :=
  ∃ front rest, stream = front ++ rest ∧ EndsEvents front ∧ sseEvents peer rest = [] ∧
    ∀ block ∈ closedBlocks front, ReadAlike peer block

theorem heardAlike_iff {stream left : Str} (h : Drains peer stream events left) :
    events = sseEvents peer stream ↔ HeardAlike peer stream := by
  have happend : ∀ {front} (rest), EndsEvents front →
      sseEvents peer (front ++ rest) = sseEvents peer front ++ sseEvents peer rest :=
    filterMap_closedBlocks_append _
  have hfront : ∀ front more, parsedEvents peer front = sseEvents peer front ++ more ↔
      more = [] ∧ ∀ block ∈ closedBlocks front, ReadAlike peer block := by
    intro front more
    simp only [← parsedEvent_eq_iff]
    exact filterMap_eq_append_iff fun block => isSome_blockEvent
  constructor
  · rintro rfl
    obtain ⟨front, rest, rfl, hends, hevents⟩ := h.events_eq.1
    rw [happend rest hends] at hevents
    obtain ⟨hrest, hblocks⟩ := (hfront front _).mp hevents.symm
    exact ⟨front, rest, rfl, hends, hrest, hblocks⟩
  · rintro ⟨front, rest, rfl, hends, hrest, hblocks⟩
    have hparsed : parsedEvents peer rest = [] := by
      refine List.filterMap_eq_nil_iff.mpr fun block hblock => ?_
      rw [← Option.not_isSome_iff_eq_none]
      intro hsome
      have hread := isSome_blockEvent hsome
      rw [List.filterMap_eq_nil_iff.mp hrest block hblock] at hread
      cases hread
    rw [h.events_eq.2 front rest rfl hends hparsed, happend rest hends,
      (hfront front _).mpr ⟨hrest, hblocks⟩]

/-- However a stream is cut into chunks, the same events are delivered. They are the events of the
stream exactly if the last of them is closed no later than some boundary, and no line without a
colon and no id with a null byte counts in them. -/
theorem events_of_stream_iff (peer : Str) {chunks : List Str}
    (hread : (readChunks peer {} chunks).2 = true) :
    (∀ chunks' : List Str, chunks'.flatten = chunks.flatten → (readChunks peer {} chunks').2 = true →
      (readChunks peer {} chunks').1.delivered = (readChunks peer {} chunks).1.delivered) ∧
    ((readChunks peer {} chunks).1.delivered = sseEvents peer chunks.flatten ↔
      HeardAlike peer chunks.flatten) := by
  have hempty : Drains peer [] ({} : Reader).delivered ({} : Reader).buffer := .done rfl
  have hdrains := drains_readChunks hempty hread
  refine ⟨fun chunks' hsame hread' => ?_, heardAlike_iff hdrains⟩
  have hdrains' := drains_readChunks hempty hread'
  rw [hsame] at hdrains'
  exact (hdrains'.unique hdrains).1

theorem events_of_stream_iff_for_fault :
    let chunks := [str "data: a\r", str "\n\r\n"]
    ((readChunks (str "p") {} chunks).1.delivered = sseEvents (str "p") chunks.flatten ↔
        HeardAlike (str "p") chunks.flatten) ∧
      (readChunks (str "p") {} chunks).1.delivered =
        [{ eventType := str "message", data := str "a", id := [], peerName := str "p" }] :=
  ⟨(events_of_stream_iff _ (by decide)).2, by decide⟩

/-- A blank line that ends in both bytes, behind a line that ends in a line feed alone, is no
boundary: the event stays in the buffer. A line without a colon is passed over. -/
theorem mixed_endings_withheld :
    let mixed := [str "data: a\n\r\n"]
    let bare := [str "data\n\n"]
    (readChunks (str "p") {} mixed).2 = true ∧
      (readChunks (str "p") {} mixed).1.delivered = [] ∧
      sseEvents (str "p") mixed.flatten =
        [{ eventType := str "message", data := str "a", id := [], peerName := str "p" }] ∧
    (readChunks (str "p") {} bare).2 = true ∧
      (readChunks (str "p") {} bare).1.delivered = [] ∧
      sseEvents (str "p") bare.flatten =
        [{ eventType := str "message", data := [], id := [], peerName := str "p" }] := by
  decide

end Medkit.Gateway.SseStream
