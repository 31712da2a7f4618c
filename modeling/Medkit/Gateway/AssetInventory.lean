import Medkit.Lib.Bytes
import Medkit.Lib.OrderedMap

/-! The CSV import of the asset inventory: a tokenizer that reads a text byte by byte, and the
reader that makes an asset of each row. -/
namespace Medkit.Gateway.AssetInventory

open Lib

def trim (s : Str) : Str := trimWith isspace s

def toLower (s : Str) : Str := s.map tolower

structure CsvField where
  value : Str := []
  quoted : Bool := false
deriving DecidableEq

structure Tokenizer where
  rows : List (List CsvField) := []
  row : List CsvField := []
  field : CsvField := {}
  inQuotes : Bool := false
  fieldHasContent : Bool := false
  fieldOnlyLeadingWs : Bool := true

namespace Tokenizer

def endField (t : Tokenizer) : Tokenizer :=
  let field := if t.field.quoted then t.field else { t.field with value := trim t.field.value }
  { t with row := t.row ++ [field], field := {}, fieldHasContent := false,
           fieldOnlyLeadingWs := true }

/-- A row of one empty cell without quotes is dropped. -/
def endRow (t : Tokenizer) : Tokenizer :=
  let t := t.endField
  { t with rows := if t.row = [{}] then t.rows else t.rows ++ [t.row], row := [] }

def pushBack (t : Tokenizer) (c : Byte) : Tokenizer :=
  { t with field := { t.field with value := t.field.value ++ [c] } }

def outside (t : Tokenizer) (c : Byte) : Tokenizer :=
  if c = 34 ∧ t.fieldOnlyLeadingWs = true ∧ t.field.quoted = false then
    { t with field := { value := [], quoted := true }, inQuotes := true, fieldHasContent := true,
             fieldOnlyLeadingWs := false }
  else if c = 44 then t.endField
  else if c = 13 then t
  else if c = 10 then t.endRow
  else
    { t.pushBack c with
      fieldHasContent := true
      fieldOnlyLeadingWs := if isspace c then t.fieldOnlyLeadingWs else false }

def scan (t : Tokenizer) : Str → Tokenizer
  | [] => t
  | c :: rest =>
      if t.inQuotes then
        if c = 34 then
          match rest with
          | [] => { t with inQuotes := false }
          | d :: rest =>
              if d = 34 then scan (t.pushBack 34) rest
              else scan { t with inQuotes := false } (d :: rest)
        else scan (t.pushBack c) rest
      else scan (t.outside c) rest

def flush (t : Tokenizer) : Tokenizer :=
  if t.fieldHasContent ∨ t.field.quoted ∨ t.row ≠ [] then t.endRow else t

end Tokenizer

def byteOrderMark : Str := [239, 187, 191]

def tokenize (text : Str) : List (List CsvField) :=
  let body := if byteOrderMark <+: text then text.drop 3 else text
  (Tokenizer.scan {} body).flush.rows

inductive AssetColumn where
  | ignore | extra | id | manufacturer | model | orderCode | serial | hardwareRev | firmware
  | endpoint | role | area
deriving DecidableEq

def assetColumn (name : Str) : AssetColumn :=
  let headerLower := toLower (trim name)
  if headerLower = [] then .ignore
  else if headerLower = str "id" then .id
  else if headerLower = str "manufacturer" then .manufacturer
  else if headerLower = str "model" then .model
  else if headerLower = str "order_code" ∨ headerLower = str "order_number" then .orderCode
  else if headerLower = str "serial" ∨ headerLower = str "serial_number" then .serial
  else if headerLower = str "hardware_rev" ∨ headerLower = str "hardware_revision" ∨
      headerLower = str "hw_rev" then .hardwareRev
  else if headerLower = str "firmware" ∨ headerLower = str "firmware_version" ∨
      headerLower = str "fw" then .firmware
  else if headerLower = str "endpoint" then .endpoint
  else if headerLower = str "role" then .role
  else if headerLower = str "area" then .area
  else .extra

structure AssetEntry where
  id : Str := []
  manufacturer : Str := []
  model : Str := []
  orderCode : Str := []
  serial : Str := []
  hardwareRev : Str := []
  firmware : Str := []
  endpoint : Str := []
  role : Str := []
  area : Str := []
  extras : List (Str × Str) := []

def assignAssetField (entry : AssetEntry) (column : AssetColumn) (header value : Str) :
    AssetEntry :=
  match column with
  | .id => { entry with id := value }
  | .manufacturer => { entry with manufacturer := value }
  | .model => { entry with model := value }
  | .orderCode => { entry with orderCode := value }
  | .serial => { entry with serial := value }
  | .hardwareRev => { entry with hardwareRev := value }
  | .firmware => { entry with firmware := value }
  | .endpoint => { entry with endpoint := value }
  | .role => { entry with role := value }
  | .area => { entry with area := value }
  | .extra =>
      if value = [] then entry else { entry with extras := entry.extras ++ [(header, value)] }
  | .ignore => entry

def assetEntry (header row : List Str) : AssetEntry :=
  (header.zip row).foldl (fun entry cell =>
    assignAssetField entry (assetColumn (trim cell.1)) (trim cell.1) cell.2) {}

structure AssetCsvResult where
  entries : List AssetEntry := []
  warnings : List Str := []

def readRows (header : List Str) :
    Nat → List (List Str) → OSet Str → AssetCsvResult → AssetCsvResult
  | _, [], _, result => result
  | r, row :: rows, seenIds, result =>
      let entry := assetEntry header row
      if entry.id = [] then
        readRows header (r + 1) rows seenIds { result with
          warnings := result.warnings ++
            [str "asset CSV: row " ++ decimal (r + 1) ++ str " skipped (empty id)"] }
      else if entry.id ∈ seenIds then
        readRows header (r + 1) rows seenIds { result with
          warnings := result.warnings ++
            [str "asset CSV: row " ++ decimal (r + 1) ++ str " skipped (duplicate id '" ++
              entry.id ++ str "', first row wins)"] }
      else
        readRows header (r + 1) rows (seenIds.insert entry.id)
          { result with entries := result.entries ++ [entry] }

def parseAssetCsv (csvText : Str) : Except Str AssetCsvResult :=
  match (tokenize csvText).map (List.map CsvField.value) with
  | [] => .error (str "asset CSV: no header row found")
  | header :: rows =>
      if ∃ name ∈ header, assetColumn (trim name) = .id then .ok (readRows header 1 rows ∅ {})
      else .error (str "asset CSV: missing required 'id' column")

/-! ## RFC 4180 texts -/

def Plain (cell : Str) : Prop :=
  (∀ c ∈ cell, c ≠ 44 ∧ c ≠ 34 ∧ c ≠ 13 ∧ c ≠ 10) ∧
    (∀ c ∈ cell.head?, isspace c = false) ∧ ∀ c ∈ cell.getLast?, isspace c = false
deriving Decidable

structure EncodedCell where
  value : Str
  quoted : Bool
  plain : quoted = false → Plain value

def escape : Str → Str
  | [] => []
  | c :: cell => if c = 34 then 34 :: 34 :: escape cell else c :: escape cell

def EncodedCell.text (cell : EncodedCell) : Str :=
  if cell.quoted then 34 :: (escape cell.value ++ [34]) else cell.value

def EncodedCell.field (cell : EncodedCell) : CsvField := ⟨cell.value, cell.quoted⟩

/-- The cells of a row and how it ends. An empty cell that is alone has quotes. -/
structure EncodedRow where
  first : EncodedCell
  others : List EncodedCell
  crlf : Bool
  visible : others = [] → first.value = [] → first.quoted = true

namespace EncodedRow

def cells (row : EncodedRow) : List EncodedCell := row.first :: row.others

def values (row : EncodedRow) : List Str := row.cells.map EncodedCell.value

def text (row : EncodedRow) : Str :=
  row.first.text ++ row.others.flatMap fun cell => 44 :: cell.text

def ending (row : EncodedRow) : Str := if row.crlf then [13, 10] else [10]

end EncodedRow

def tableText (lastEnded : Bool) : List EncodedRow → Str
  | [] => []
  | [row] => row.text ++ if lastEnded then row.ending else []
  | row :: rows => row.text ++ row.ending ++ tableText lastEnded rows

def csvText (marked lastEnded : Bool) (table : List EncodedRow) : Str :=
  (if marked then byteOrderMark else []) ++ tableText lastEnded table

/-! ## The tokenizer on such a text -/

theorem trim_of_plain {cell : Str} (h : Plain cell) : trim cell = cell :=
  trimWith_eq_self h.2.1 h.2.2

namespace Tokenizer

variable {t : Tokenizer} {c : Byte} {rest : Str}

theorem scan_outside (h : t.inQuotes = false) : t.scan (c :: rest) = (t.outside c).scan rest := by
  rw [scan.eq_def]
  simp [h]

theorem scan_inside (h : t.inQuotes = true) (hc : c ≠ 34) :
    t.scan (c :: rest) = (t.pushBack c).scan rest := by
  rw [scan.eq_def]
  simp [h, hc]

theorem scan_doubled (h : t.inQuotes = true) :
    t.scan (34 :: 34 :: rest) = (t.pushBack 34).scan rest := by
  simp [scan, h]

theorem scan_closing (h : t.inQuotes = true) (hrest : rest.head? ≠ some 34) :
    t.scan (34 :: rest) = { t with inQuotes := false }.scan rest := by
  cases rest with
  | nil => simp [scan, h]
  | cons d rest =>
    have hd : d ≠ 34 := fun heq => hrest (by rw [List.head?_cons, heq])
    rw [scan, if_pos h, if_pos rfl]
    exact if_neg hd

def read (t : Tokenizer) (cell : Str) : Tokenizer :=
  { t with field := { t.field with value := t.field.value ++ cell }, inQuotes := false }

theorem scan_escape (cell : Str) (h : t.inQuotes = true) (hrest : rest.head? ≠ some 34) :
    t.scan (escape cell ++ 34 :: rest) = (t.read cell).scan rest := by
  induction cell generalizing t with
  | nil => simp [escape, scan_closing h hrest, read]
  | cons c cell ih =>
    have hstep : t.scan (escape (c :: cell) ++ 34 :: rest) =
        (t.pushBack c).scan (escape cell ++ 34 :: rest) := by
      by_cases hc : c = 34
      · rw [escape, if_pos hc, hc]
        exact scan_doubled h
      · rw [escape, if_neg hc]
        exact scan_inside h hc
    rw [hstep, ih (t := t.pushBack c) h]
    simp [read, pushBack]

theorem outside_plain (hc : c ≠ 44 ∧ c ≠ 34 ∧ c ≠ 13 ∧ c ≠ 10) :
    t.outside c = { t.pushBack c with
      fieldHasContent := true
      fieldOnlyLeadingWs := if isspace c then t.fieldOnlyLeadingWs else false } := by
  simp [outside, hc]

theorem scan_plain (cell : Str) (hcell : ∀ c ∈ cell, c ≠ 44 ∧ c ≠ 34 ∧ c ≠ 13 ∧ c ≠ 10)
    (h : t.inQuotes = false) :
    ∃ content leading, t.scan (cell ++ rest) = { t.read cell with
        fieldHasContent := content, fieldOnlyLeadingWs := leading }.scan rest ∧
      (t.fieldHasContent = true ∨ cell ≠ [] → content = true) := by
  induction cell generalizing t with
  | nil => exact ⟨t.fieldHasContent, t.fieldOnlyLeadingWs, by simp [read, ← h], by simp⟩
  | cons c cell ih =>
    obtain ⟨hc, hcell⟩ := List.forall_mem_cons.mp hcell
    have hout := outside_plain (t := t) hc
    obtain ⟨content, leading, hscan, hcontent⟩ :=
      ih (t := t.outside c) hcell (by rw [hout]; exact h)
    refine ⟨content, leading, ?_, fun _ => hcontent (.inl (by rw [hout]))⟩
    rw [List.cons_append, scan_outside h, hscan, hout]
    simp [read, pushBack]

def fresh (rows : List (List CsvField)) (row : List CsvField) : Tokenizer := { rows, row }

def Pending (t : Tokenizer) : Prop :=
  t.fieldHasContent = true ∨ t.field.quoted = true ∨ t.row ≠ []

structure After (rows : List (List CsvField)) (fields : List CsvField) (t : Tokenizer) : Prop where
  inQuotes : t.inQuotes = false
  endField : t.endField = fresh rows fields

variable {rows : List (List CsvField)}

theorem scan_cell (row : List CsvField) (cell : EncodedCell) (hrest : rest.head? ≠ some 34) :
    ∃ t, (fresh rows row).scan (cell.text ++ rest) = t.scan rest ∧
      After rows (row ++ [cell.field]) t ∧
      (row ≠ [] ∨ cell.value ≠ [] ∨ cell.quoted = true → t.Pending) := by
  cases hquoted : cell.quoted with
  | true =>
    refine ⟨((fresh rows row).outside 34).read cell.value, ?_, ⟨rfl, ?_⟩,
      fun _ => .inr (.inl rfl)⟩
    · rw [EncodedCell.text, if_pos hquoted, List.cons_append, scan_outside rfl,
        List.append_assoc, List.singleton_append]
      exact scan_escape cell.value rfl hrest
    · simp [endField, read, outside, fresh, EncodedCell.field, hquoted]
  | false =>
    obtain ⟨content, leading, hscan, hcontent⟩ :=
      scan_plain (t := fresh rows row) cell.value (cell.plain hquoted).1 rfl
    refine ⟨_, by rw [EncodedCell.text, if_neg (by simp [hquoted]), hscan], ⟨rfl, ?_⟩, ?_⟩
    · have htrim := trim_of_plain (cell.plain hquoted)
      simp [endField, read, fresh, htrim, EncodedCell.field, hquoted]
    · rintro (hrow | hvalue | hno)
      · exact .inr (.inr hrow)
      · exact .inl (hcontent (.inr hvalue))
      · cases hno

theorem scan_cells (first : EncodedCell) (others : List EncodedCell) (row : List CsvField)
    (hrest : rest.head? ≠ some 34) :
    ∃ t, (fresh rows row).scan
        ((first.text ++ others.flatMap fun cell => 44 :: cell.text) ++ rest) = t.scan rest ∧
      After rows (row ++ (first :: others).map EncodedCell.field) t ∧
      (row ≠ [] ∨ others ≠ [] ∨ first.value ≠ [] ∨ first.quoted = true → t.Pending) := by
  induction others generalizing first row with
  | nil =>
    obtain ⟨t, hscan, hafter, hpending⟩ := scan_cell row first hrest
    exact ⟨t, by simpa using hscan, hafter, by simpa using hpending⟩
  | cons cell others ih =>
    have hcommaFirst : (44 :: (cell.text ++ (others.flatMap (fun cell => 44 :: cell.text) ++
        rest))).head? ≠ some 34 := by simp
    obtain ⟨t, hscan, hafter, -⟩ := scan_cell row first hcommaFirst
    obtain ⟨t', hscan', hafter', hpending⟩ := ih cell (row ++ [first.field])
    have hcomma : t.outside 44 = t.endField := by simp [outside]
    refine ⟨t', ?_, by simpa using hafter', fun _ => hpending (.inl (by simp))⟩
    rw [scan_outside hafter.inQuotes, hcomma, hafter.endField] at hscan
    simpa using hscan.trans (by simpa using hscan')

theorem endRow_of_after {row : EncodedRow} (h : After rows (row.cells.map EncodedCell.field) t) :
    t.endRow = fresh (rows ++ [row.cells.map EncodedCell.field]) [] := by
  have hvisible : row.cells.map EncodedCell.field ≠ [{}] := by
    intro heq
    simp only [EncodedRow.cells, List.map_cons, List.cons.injEq, List.map_eq_nil_iff,
      EncodedCell.field, CsvField.mk.injEq] at heq
    have := row.visible heq.2 heq.1.1
    simp [heq.1.2] at this
  simp only [endRow, h.endField, fresh, if_neg hvisible]

theorem scan_ending {row : EncodedRow} (h : After rows (row.cells.map EncodedCell.field) t) :
    t.scan (row.ending ++ rest) =
      (fresh (rows ++ [row.cells.map EncodedCell.field]) []).scan rest := by
  have hlf : t.scan (10 :: rest) = t.endRow.scan rest := by
    rw [scan_outside h.inQuotes]
    simp [outside]
  rw [← endRow_of_after h, ← hlf, EncodedRow.ending]
  split
  · rw [List.cons_append, scan_outside h.inQuotes]
    simp [outside]
  · rfl

theorem scan_row (rows : List (List CsvField)) (row : EncodedRow) (hrest : rest.head? ≠ some 34) :
    ∃ t, (fresh rows []).scan (row.text ++ rest) = t.scan rest ∧
      After rows (row.cells.map EncodedCell.field) t ∧ t.Pending := by
  obtain ⟨t, hscan, hafter, hpending⟩ := scan_cells row.first row.others [] hrest
  refine ⟨t, hscan, hafter, hpending (.inr ?_)⟩
  by_contra! hnone
  exact hnone.2.2 (row.visible hnone.1 hnone.2.1)

theorem scan_line (rows : List (List CsvField)) (row : EncodedRow) (rest : Str) :
    (fresh rows []).scan (row.text ++ (row.ending ++ rest)) =
      (fresh (rows ++ [row.cells.map EncodedCell.field]) []).scan rest := by
  have hending : (row.ending ++ rest).head? ≠ some 34 := by
    unfold EncodedRow.ending
    split <;> simp
  obtain ⟨t, hscan, hafter, -⟩ := scan_row rows row hending
  rw [hscan, scan_ending hafter]

theorem scan_tableText (lastEnded : Bool) (table : List EncodedRow) :
    ((fresh rows []).scan (tableText lastEnded table)).flush.rows =
      rows ++ table.map fun row => row.cells.map EncodedCell.field := by
  fun_induction tableText lastEnded table generalizing rows with
  | case1 => simp [scan, flush, fresh]
  | case2 row =>
    cases lastEnded with
    | true =>
      have hline := scan_line rows row []
      rw [List.append_nil] at hline
      rw [if_pos rfl, hline]
      simp [scan, flush, fresh]
    | false =>
      have hend : ([] : Str).head? ≠ some 34 := by simp
      obtain ⟨t, hscan, hafter, hpending⟩ := scan_row rows row hend
      have hflush : t.flush = t.endRow := if_pos hpending
      rw [if_neg (by simp), hscan, scan, hflush, endRow_of_after hafter]
      rfl
  | case3 row table _ ih =>
    rw [List.append_assoc, scan_line, ih, List.map_cons, List.append_assoc]
    rfl

end Tokenizer

theorem tokenize_csvText (marked lastEnded : Bool) (table : List EncodedRow)
    (hmark : marked = true ∨ ¬ byteOrderMark <+: tableText lastEnded table) :
    tokenize (csvText marked lastEnded table) =
      table.map fun row => row.cells.map EncodedCell.field := by
  have hbody : (if byteOrderMark <+: csvText marked lastEnded table
      then (csvText marked lastEnded table).drop 3 else csvText marked lastEnded table) =
      tableText lastEnded table := by
    cases marked with
    | true => simp [csvText, byteOrderMark]
    | false =>
      have hplain : ¬ byteOrderMark <+: tableText lastEnded table := hmark.resolve_left (by simp)
      simp [csvText, hplain]
  rw [tokenize, hbody]
  exact Tokenizer.scan_tableText lastEnded table

/-! ## The rows that become assets -/

def idCell (header row : List Str) : Str :=
  (((header.zip row).filter fun cell => assetColumn (trim cell.1) = .id).getLast?.map
    Prod.snd).getD []

theorem id_foldl_assign (cells : List (Str × Str)) (entry : AssetEntry) :
    (cells.foldl (fun entry cell =>
      assignAssetField entry (assetColumn (trim cell.1)) (trim cell.1) cell.2) entry).id =
      ((cells.filter fun cell => assetColumn (trim cell.1) = .id).getLast?.map Prod.snd).getD
        entry.id := by
  induction cells generalizing entry with
  | nil => rfl
  | cons cell cells ih =>
    rw [List.foldl_cons, ih]
    by_cases hid : assetColumn (trim cell.1) = .id
    · rw [List.filter_cons_of_pos (by simp [hid]), List.getLast?_cons, hid]
      cases (cells.filter fun cell => assetColumn (trim cell.1) = .id).getLast? <;> rfl
    · have hkept : (assignAssetField entry (assetColumn (trim cell.1)) (trim cell.1) cell.2).id =
          entry.id := by
        unfold assignAssetField
        split <;> grind
      rw [List.filter_cons_of_neg (by simp [hid]), hkept]

theorem assetEntry_id (header row : List Str) : (assetEntry header row).id = idCell header row :=
  id_foldl_assign (header.zip row) {}

def IsFirst (header : List Str) (rows : List (List Str)) (row : List Str × Nat) : Prop :=
  idCell header row.1 ≠ [] ∧
    ∀ earlier ∈ rows.take row.2, idCell header earlier ≠ idCell header row.1
deriving Decidable

def firstRows (header : List Str) (rows : List (List Str)) : List (List Str) :=
  (rows.zipIdx.filter (IsFirst header rows ·)).map Prod.fst

theorem readRows_entries (header : List Str) (r : Nat) (before rows : List (List Str))
    (seenIds : OSet Str) (result : AssetCsvResult)
    (hseen : ∀ id, id ∈ seenIds ↔ id ≠ [] ∧ ∃ row ∈ before, idCell header row = id) :
    (readRows header r rows seenIds result).entries = result.entries ++
      (((rows.zipIdx before.length).filter (IsFirst header (before ++ rows) ·)).map Prod.fst).map
        (assetEntry header) := by
  induction rows generalizing r before seenIds result with
  | nil => simp [readRows]
  | cons row rows ih =>
    have hfirst : IsFirst header (before ++ row :: rows) (row, before.length) ↔
        idCell header row ≠ [] ∧ idCell header row ∉ seenIds := by
      rw [IsFirst, List.take_left, hseen]
      grind
    have hsplit : before ++ row :: rows = (before ++ [row]) ++ rows := by simp
    have hlength : before.length + 1 = (before ++ [row]).length := by simp
    rw [hsplit] at hfirst ⊢
    rw [List.zipIdx_cons, hlength, List.filter_cons]
    simp only [readRows, assetEntry_id]
    split
    · rename_i hempty
      rw [ih (r + 1) (before ++ [row]) seenIds,
        if_neg fun h => (hfirst.mp (of_decide_eq_true h)).1 hempty]
      intro id
      rw [hseen]
      grind
    · rename_i hid
      split
      · rename_i hdouble
        rw [ih (r + 1) (before ++ [row]) seenIds,
          if_neg fun h => (hfirst.mp (of_decide_eq_true h)).2 hdouble]
        intro id
        rw [hseen]
        grind
      · rename_i hnew
        rw [ih (r + 1) (before ++ [row]) (seenIds.insert (idCell header row)),
          if_pos (decide_eq_true (hfirst.mpr ⟨hid, hnew⟩))]
        · simp
        · intro id
          rw [OSet.mem_insert_iff, hseen]
          grind

end Medkit.Gateway.AssetInventory
