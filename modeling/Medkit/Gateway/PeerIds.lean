import Medkit.Gateway.PeerClient

/-! Which ids a fetch lets through: those of the lists are checked, those of the details of
components and functions are taken as they are. -/
namespace Medkit.Gateway.PeerClient

open Lib

/-- The body that is read from a response: of status 200, of a bearable size and JSON. -/
def acceptedBody (response : Response) : Option Json :=
  if response.status = 200 ∧ response.size ≤ maxPeerResponseSize then response.json else none

def ValidDetail (json : Json) : Request → Prop
  | .component _ => ∀ comp, parseComponent json = .ok comp → isValidEntityId comp.id = true
  | .function _ => ∀ func, parseFunction json = .ok func → isValidEntityId func.id = true
  | _ => True

/-- The bodies read in answer to the requests made describe components and functions under valid
ids. -/
def ValidDetails (peer : Peer) (requests : List Request) : Prop :=
  ∀ earlier request later json, requests = earlier ++ request :: later →
    (peer earlier request).bind acceptedBody = some json → ValidDetail json request

/-- The ids that a request path was built with are valid, those of subcomponents left aside. -/
def ValidPaths (progress : Progress) : Prop :=
  ∀ request ∈ progress.requests, ∀ id, request.inserted = some id →
    isValidEntityId id = true ∨ request = .subcomponents id

/-- Paths stay valid, what is returned satisfies `post`, and the details read on the way carry valid
ids exactly if `cond` holds of it. -/
def Yields {α : Type} (peer : Peer) (m : Fetch α) (post cond : α → Prop) : Prop :=
  Ensures ValidPaths (fun progress => ValidDetails peer progress.requests) m post cond

section Rules

variable {peerName : Str} {peer : Peer} {request : Request}

theorem validDetails_append (requests : List Request) :
    ValidDetails peer (requests ++ [request]) ↔ ValidDetails peer requests ∧
      ∀ json, (peer requests request).bind acceptedBody = some json → ValidDetail json request := by
  constructor
  · intro h
    refine ⟨fun earlier other later json hsplit => ?_, fun json => h requests request [] json rfl⟩
    exact h earlier other (later ++ [request]) json (by rw [hsplit, List.append_assoc]; rfl)
  · rintro ⟨hrequests, hlast⟩ earlier other later json hsplit
    rcases List.eq_nil_or_concat later with rfl | ⟨later, last, rfl⟩
    · obtain ⟨rfl, hother⟩ := List.append_inj' hsplit rfl
      obtain rfl : request = other := List.head_eq_of_cons_eq hother
      exact hlast json
    · rw [List.concat_eq_append, ← List.cons_append, ← List.append_assoc] at hsplit
      exact hrequests earlier other later json (List.append_inj' hsplit rfl).1

theorem yields_parsed {α : Type} (result : Except JsonError α) :
    Yields peer (parsed result) (fun a => result = .ok a) fun _ => True := by
  cases result with
  | ok a => exact Ensures.pure rfl trivial
  | error e => exact Ensures.throw _

theorem readBody_eq_body (peerName : Str) (request : Request) {response : Response} {json : Json} :
    readBody peerName request response = .body json ↔ acceptedBody response = some json := by
  unfold readBody acceptedBody
  grind

theorem readSubResponse_eq_body (peerName : Str) (request : Request) {result : Option Response}
    {json : Json} :
    readSubResponse peerName request result = .ok (.body json) ↔
      result.bind acceptedBody = some json := by
  cases result with
  | none => exact ⟨nofun, nofun⟩
  | some response =>
    by_cases hstatus : response.status = 200
    · simp [readSubResponse, hstatus, Except.map, readBody_eq_body]
    · have hrefused : readBody peerName request response ≠ .body json := by
        rw [ne_eq, readBody_eq_body, acceptedBody, if_neg fun h => hstatus h.1]
        exact nofun
      rw [Option.bind_some, ← readBody_eq_body peerName request]
      refine iff_of_false (fun h => ?_) hrefused
      simp only [readSubResponse] at h
      split at h
      · exact absurd h nofun
      · generalize (if response.status = 504 then saysNotResponding response else .ok false) =
          silent at h
        cases silent with
        | error e => exact absurd h nofun
        | ok silent =>
          simp only [Except.map] at h
          split at h
          · exact absurd h nofun
          · exact hrefused (Except.ok.inj h)

theorem yields_noteAbsentRoute (route : Str) :
    Yields peer (noteAbsentRoute route) (fun _ => True) fun _ => True := by
  intro progress hprogress
  have hrequests : ((noteAbsentRoute route).run.run progress).2.requests = progress.requests := by
    show (if route ∈ progress.absentRoutes then progress
      else { progress with absentRoutes := progress.absentRoutes ++ [route] }).requests = _
    split <;> rfl
  unfold ValidPaths
  rw [hrequests]
  exact ⟨hprogress, fun _ _ => ⟨trivial, by simp only [hrequests, and_true]⟩⟩

section Sent

variable (hrequest : ∀ id, request.inserted = some id →
    isValidEntityId id = true ∨ request = .subcomponents id)

include hrequest

theorem yields_send : Yields peer (send peer request) (fun _ => True) fun result =>
      ∀ json, result.bind acceptedBody = some json → ValidDetail json request := by
  intro progress hprogress
  constructor
  · intro other hother
    rcases List.mem_append.mp hother with hother | hother
    · exact hprogress other hother
    · rw [List.mem_singleton.mp hother]
      exact hrequest
  · intro result hresult
    obtain rfl : peer progress.requests request = result := Except.ok.inj hresult
    exact ⟨trivial, validDetails_append progress.requests⟩

theorem yields_ask : Yields peer (ask peerName peer request) (fun _ => True) fun sub =>
      ∀ json, sub = .body json → ValidDetail json request := by
  refine Ensures.bind (fun _ _ => True) (yields_send hrequest) fun result _ => ?_
  refine (yields_parsed _).weaken fun sub hsub => ⟨⟨trivial, ?_⟩, .rfl⟩
  simp only [← readSubResponse_eq_body peerName request, hsub, Except.ok.injEq, and_true]

theorem yields_ask_plain (hplain : ∀ json, ValidDetail json request) :
    Yields peer (ask peerName peer request) (fun _ => True) fun _ => True :=
  (yields_ask hrequest).weaken fun _ _ =>
    ⟨trivial, iff_of_true trivial fun json _ => hplain json⟩

theorem yields_askBody : Yields peer (askBody peerName peer request) (fun _ => True) fun json =>
      ValidDetail json request := by
  refine Ensures.bind (fun _ _ => True) (yields_ask hrequest) fun sub _ => ?_
  cases sub with
  | body json => exact Ensures.pure ⟨trivial, by simp⟩ trivial
  | routeAbsent | entityUnreachable | incomplete _ => exact Ensures.throw _

theorem yields_fetchNested (hplain : ∀ json, ValidDetail json request) (template : Str) :
    Yields peer (fetchNested peerName peer request template) (fun _ => True) fun _ => True := by
  refine Ensures.bind_plain (yields_ask_plain hrequest hplain) fun sub _ => ?_
  cases sub with
  | incomplete error => exact Ensures.throw _
  | entityUnreachable => exact Ensures.pure trivial trivial
  | body json => exact Ensures.pure trivial trivial
  | routeAbsent =>
    exact Ensures.bind_plain (yields_noteAbsentRoute template)
      fun _ _ => Ensures.pure trivial trivial

end Sent

theorem yields_fetchCollection {α : Type} (hrequest : request.inserted = none)
    (parser : Json → Except JsonError α) (id : α → Str) (what : Str) :
    Yields peer (fetchCollection peerName peer request parser id what)
      (fun entities => ∀ entity ∈ entities, isValidEntityId (id entity) = true)
      fun _ => True := by
  have hbody : Yields peer (askBody peerName peer request) (fun _ => True) fun _ => True := by
    refine (yields_askBody (by rw [hrequest]; exact nofun)).weaken fun json _ => ⟨trivial, ?_⟩
    cases request <;> first | exact .rfl | exact absurd hrequest nofun
  refine Ensures.bind_plain hbody fun body _ => ?_
  refine Ensures.bind_plain (yields_parsed _) fun all _ => ?_
  dsimp only
  split
  · exact Ensures.throw _
  · exact Ensures.pure (fun entity hentity => (List.mem_filter.mp hentity).2) trivial

end Rules

/-! ## The fetch -/

section Fetch

variable {peerName : Str} {peer : Peer}

theorem yields_fetchSubareas {area : Area} (harea : isValidEntityId area.id = true) :
    Yields peer (fetchSubareas peerName peer area)
      (fun subareas => ∀ area ∈ subareas, isValidEntityId area.id = true) fun _ => True := by
  refine Ensures.bind_plain (yields_fetchNested ?_ ?_ _) fun body _ => ?_
  · rintro id ⟨⟩
    exact .inl harea
  · exact fun _ => trivial
  · cases body with
    | none => exact Ensures.pure (fun _ h => absurd h List.not_mem_nil) trivial
    | some body =>
      refine Ensures.bind_plain (yields_parsed _) fun all _ =>
        Ensures.pure (fun sub hsub => ?_) trivial
      obtain ⟨parsed, hparsed, rfl⟩ := List.mem_map.mp hsub
      exact (List.mem_filter.mp hparsed).2

theorem yields_fetchAreas :
    Yields peer (fetchAreas peerName peer)
      (fun areas => ∀ area ∈ areas, isValidEntityId area.id = true) fun _ => True := by
  refine Ensures.bind_plain (yields_fetchCollection rfl parseArea Area.id (str " areas"))
    fun areas hareas => ?_
  have hown : ∀ area ∈ areas.map (ownArea peerName), isValidEntityId area.id = true := by
    intro area harea
    obtain ⟨listed, hlisted, rfl⟩ := List.mem_map.mp harea
    exact hareas listed hlisted
  refine Ensures.bind_plain (Ensures.mapM_post fun area harea =>
    yields_fetchSubareas (hown area harea))
    fun subareas hsub => Ensures.pure (fun area harea => ?_) trivial
  rcases List.mem_append.mp harea with harea | harea
  · exact hown area harea
  · obtain ⟨areas, hareas, harea⟩ := List.mem_flatten.mp harea
    exact hsub areas hareas area harea

theorem yields_describeComponent {comp : Component} (hcomp : isValidEntityId comp.id = true)
    (parent : Option Str) :
    Yields peer (describeComponent peerName peer comp parent) (fun _ => True) fun comp =>
      isValidEntityId comp.id = true := by
  refine Ensures.bind (fun _ _ => True) (yields_ask ?_) fun sub _ => ?_
  · rintro id ⟨⟩
    exact .inl hcomp
  · cases sub with
    | incomplete error => exact Ensures.throw _
    | body json =>
      refine Ensures.bind_plain (yields_parsed _) fun detail hdetail =>
        Ensures.pure ⟨trivial, ?_⟩ trivial
      simp [ValidDetail, hdetail, ownComponent]
    | routeAbsent | entityUnreachable =>
      exact Ensures.pure ⟨trivial, by simpa [ownComponent] using hcomp⟩ trivial

theorem yields_fetchSubcomponents (comp : Component) :
    Yields peer (fetchSubcomponents peerName peer comp) (fun _ => True) fun subcomps =>
      ∀ comp ∈ subcomps, isValidEntityId comp.id = true := by
  refine Ensures.bind_plain (yields_fetchNested ?_ ?_ _) fun body _ => ?_
  · rintro id ⟨⟩
    exact .inr rfl
  · exact fun _ => trivial
  · cases body with
    | none => exact Ensures.pure trivial (fun _ h => absurd h List.not_mem_nil)
    | some body =>
      refine Ensures.bind_plain (yields_parsed _) fun all _ => ?_
      exact Ensures.mapM_cond fun sub hsub =>
        yields_describeComponent (List.mem_filter.mp hsub).2 _

theorem yields_fetchComponents :
    Yields peer (fetchComponents peerName peer) (fun _ => True) fun components =>
      ∀ comp ∈ components, isValidEntityId comp.id = true := by
  refine Ensures.bind_plain (yields_fetchCollection rfl parseComponent Component.id
    (str " components")) fun listed hlisted => ?_
  refine Ensures.bind (fun comps components => ∀ comp ∈ components.drop comps.length,
    isValidEntityId comp.id = true) (Ensures.mapM_cond fun comp hcomp =>
    yields_describeComponent (hlisted comp hcomp) none) fun comps _ => ?_
  refine Ensures.bind (fun _ _ => True)
    (Ensures.mapM_cond fun comp _ => yields_fetchSubcomponents comp)
    fun subcomps _ => Ensures.pure ⟨⟨trivial, ?_⟩, ?_⟩ trivial
  · rw [List.drop_left]
    exact List.forall_mem_append
  · rw [List.drop_left, and_true]
    exact List.forall_mem_flatten

theorem id_foldlM {α : Type} {parse : Json → Except JsonError α} {add : App → α → App}
    (hadd : ∀ app a, (add app a).id = app.id) {items : List Json} {app app' : App}
    (h : items.foldlM (fun app item => (parse item).map (add app)) app = .ok app') :
    app'.id = app.id := by
  induction items generalizing app with
  | nil => rw [Except.ok.inj h]
  | cons item items ih =>
    rw [List.foldlM_cons] at h
    cases hparse : parse item with
    | error e =>
      rw [hparse] at h
      exact absurd h nofun
    | ok a =>
      rw [hparse] at h
      exact (ih h).trans (hadd app a)

theorem id_addOperation (app : App) (op : Option Operation) : (addOperation app op).id = app.id := by
  unfold addOperation
  split
  · rfl
  · split <;> rfl

theorem id_addTopic (app : App) (entry : Option (Str × Str)) : (addTopic app entry).id = app.id := by
  unfold addTopic
  split <;> rfl

theorem yields_parsedInto {app : App} (happ : isValidEntityId app.id = true)
    {result : Except JsonError App} (hid : ∀ app', result = .ok app' → app'.id = app.id) :
    Yields peer (parsed result) (fun app => isValidEntityId app.id = true) fun _ => True := by
  refine (yields_parsed result).weaken fun app' hparsed => ⟨?_, .rfl⟩
  rw [hid app' hparsed]
  exact happ

theorem yields_fetchOperations {app : App} (happ : isValidEntityId app.id = true) :
    Yields peer (fetchOperations peerName peer app) (fun app => isValidEntityId app.id = true)
      fun _ => True := by
  refine Ensures.bind_plain (yields_fetchNested ?_ ?_ _) fun body _ => ?_
  · rintro id ⟨⟩
    exact .inl happ
  · exact fun _ => trivial
  · cases body with
    | none => exact Ensures.pure happ trivial
    | some body => exact yields_parsedInto happ fun _ => id_foldlM id_addOperation

theorem yields_fetchData {app : App} (happ : isValidEntityId app.id = true) :
    Yields peer (fetchData peerName peer app) (fun app => isValidEntityId app.id = true)
      fun _ => True := by
  refine Ensures.bind_plain (yields_fetchNested ?_ ?_ _) fun body _ => ?_
  · rintro id ⟨⟩
    exact .inl happ
  · exact fun _ => trivial
  · cases body with
    | none => exact Ensures.pure happ trivial
    | some body => exact yields_parsedInto happ fun _ => id_foldlM id_addTopic

theorem yields_fetchApps :
    Yields peer (fetchApps peerName peer)
      (fun apps => ∀ app ∈ apps, isValidEntityId app.id = true) fun _ => True := by
  refine Ensures.bind_plain (yields_fetchCollection rfl parseApp App.id (str " apps"))
    fun listed hlisted => ?_
  refine Ensures.mapM_post fun app happ => ?_
  have hid : isValidEntityId app.id = true := by
    obtain ⟨found, hfound, rfl⟩ := List.mem_map.mp (List.mem_filter.mp happ).1
    exact hlisted found hfound
  exact Ensures.bind_plain (yields_fetchOperations hid) fun app happ => yields_fetchData happ

theorem yields_fetchFunctions :
    Yields peer (fetchFunctions peerName peer) (fun _ => True) fun functions =>
      ∀ func ∈ functions, isValidEntityId func.id = true := by
  refine Ensures.bind_plain (yields_fetchCollection rfl parseFunction SovdFunction.id
    (str " functions")) fun listed hlisted => ?_
  refine Ensures.mapM_cond fun func hfunc => ?_
  refine Ensures.bind (fun _ _ => True) (yields_askBody ?_) fun body _ => ?_
  · rintro id ⟨⟩
    exact .inl (hlisted func hfunc)
  · refine Ensures.bind_plain (yields_parsed _) fun detail hdetail =>
      Ensures.pure ⟨trivial, ?_⟩ trivial
    simp [ValidDetail, hdetail, ownFunction]

def FetchResult.Valid (result : FetchResult) : Prop :=
  (∀ area ∈ result.entities.areas, isValidEntityId area.id = true) ∧
    (∀ comp ∈ result.entities.components, isValidEntityId comp.id = true) ∧
    (∀ app ∈ result.entities.apps, isValidEntityId app.id = true) ∧
    ∀ func ∈ result.entities.functions, isValidEntityId func.id = true

theorem yields_fetchEntities (shutdownRequested : Bool) :
    Yields peer (fetchEntities peerName peer shutdownRequested) (fun _ => True)
      FetchResult.Valid := by
  unfold fetchEntities
  split
  · exact Ensures.throw _
  · refine Ensures.bind_plain yields_fetchAreas fun areas hareas => ?_
    refine Ensures.bind (fun _ result => ∀ func ∈ result.entities.functions,
      isValidEntityId func.id = true) yields_fetchComponents fun components _ => ?_
    refine Ensures.bind_plain yields_fetchApps fun apps happs => ?_
    refine Ensures.bind (fun _ _ => True) yields_fetchFunctions fun functions _ => ?_
    intro progress hprogress
    refine ⟨hprogress, fun result hresult => ?_⟩
    rw [← Except.ok.inj hresult]
    refine ⟨⟨⟨trivial, ?_⟩, (and_true _).to_iff.symm⟩, (and_iff_left trivial).symm⟩
    exact ⟨fun h => ⟨h.2.1, h.2.2.2⟩, fun h => ⟨hareas, h.1, happs, h.2⟩⟩

end Fetch

def entityOf (id : Str) : Json := .object [(str "id", .string id)]

def peerDescribing (component function : Str) : Peer
  | _, .components => some ⟨200, some (.object [(str "items", .array [entityOf (str "ecu")])]), 0⟩
  | _, .component _ => some ⟨200, some (entityOf component), 0⟩
  | _, .functions => some ⟨200, some (.object [(str "items", .array [entityOf (str "drive")])]), 0⟩
  | _, .function _ => some ⟨200, some (entityOf function), 0⟩
  | _, _ => some ⟨200, some (.object []), 0⟩

end Medkit.Gateway.PeerClient
