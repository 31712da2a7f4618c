import Medkit.Gateway.PeerMerge

/-! Names across the gateway: the hosts of a peer's functions follow the renamed apps, and
a request goes to the peer under the name the peer knows. Both directions work on the text
of the ids, so they rest on where the separator occurs. -/
namespace Medkit.Gateway.Aggregation

open Lib EntityMerger

/-! ## Hosts of functions -/

def appPart (routedId : Str) : Option Str :=
  (findSub separator routedId).map fun pos => routedId.drop (pos + separator.length)

theorem getElem?_appIdRemap (order : VisitOrder) (routingTable : OMap Str Str) (host : Str) :
    (appIdRemap order routingTable)[host]? =
      ((order.keys routingTable).filter fun id => appPart id = some host).getLast? := by
  unfold appIdRemap
  induction order.keys routingTable using List.reverseRecOn with
  | nil => simp
  | append_singleton ids id ih =>
    rw [List.foldl_append, List.foldl_cons, List.foldl_nil, List.filter_append]
    cases hpos : findSub separator id with
    | none =>
      have hpart : appPart id = none := by simp [appPart, hpos]
      simpa [hpart] using ih
    | some pos =>
      have hpart : appPart id = some (id.drop (pos + separator.length)) := by
        simp [appPart, hpos]
      by_cases hhost : id.drop (pos + separator.length) = host
      · simp [hpart, hhost]
      · rw [OMap.getElem?_insert_of_ne hhost, ih]
        simp [hpart, hhost]

variable {routingTable : OMap Str Str} {host : Str}

theorem appPart_of_remap {order : VisitOrder} {id : Str}
    (h : (appIdRemap order routingTable)[host]? = some id) :
    (routingTable[id]?).isSome ∧ appPart id = some host := by
  rw [getElem?_appIdRemap] at h
  obtain ⟨hkey, hpart⟩ := List.mem_filter.mp (List.mem_of_getLast? h)
  have hmem : id ∈ routingTable := Std.ExtTreeMap.mem_keys.mp ((order.perm _).mem_iff.mp hkey)
  exact ⟨Std.ExtTreeMap.mem_iff_isSome_getElem?.mp hmem, of_decide_eq_true hpart⟩

theorem remap_isSome_of_appPart (order : VisitOrder) {id : Str} (hid : (routingTable[id]?).isSome)
    (hpart : appPart id = some host) : ((appIdRemap order routingTable)[host]?).isSome := by
  have hmem : id ∈ order.keys routingTable := by
    rw [(order.perm _).mem_iff, Std.ExtTreeMap.mem_keys, Std.ExtTreeMap.mem_iff_isSome_getElem?]
    exact hid
  rw [getElem?_appIdRemap, List.getLast?_isSome]
  exact List.ne_nil_of_mem (List.mem_filter.mpr ⟨hmem, decide_eq_true hpart⟩)

theorem length_of_appPart {id : Str} (h : appPart id = some host) : host.length < id.length := by
  obtain ⟨pos, hpos, rfl⟩ := Option.map_eq_some_iff.mp h
  obtain ⟨front, back, rfl, rfl⟩ := findSub_spec hpos
  have hseparator : separator.length = 2 := by decide
  simp only [List.length_drop, List.length_append]
  omega

def visitLast (id : Str) : VisitOrder where
  keys m := m.keys.filter (· ≠ id) ++ m.keys.filter fun key => ! decide (key ≠ id)
  perm m := List.filter_append_perm _ m.keys

theorem remap_visitLast {id : Str} (hid : (routingTable[id]?).isSome)
    (hpart : appPart id = some host) :
    (appIdRemap (visitLast id) routingTable)[host]? = some id := by
  have hlast : ∀ key ∈ (routingTable.keys.filter fun key => ! decide (key ≠ id)).filter
      (fun key => appPart key = some host), key = id := by
    intro key hkey
    simpa using (List.mem_filter.mp (List.mem_filter.mp hkey).1).2
  have hmem : id ∈ (routingTable.keys.filter fun key => ! decide (key ≠ id)).filter
      (fun key => appPart key = some host) := by
    refine List.mem_filter.mpr ⟨List.mem_filter.mpr ⟨?_, by simp⟩, decide_eq_true hpart⟩
    exact Std.ExtTreeMap.mem_keys.mpr (Std.ExtTreeMap.mem_iff_isSome_getElem?.mpr hid)
  rw [getElem?_appIdRemap, visitLast, List.filter_append,
    List.getLast?_append_of_ne_nil _ (List.ne_nil_of_mem hmem),
    List.getLast?_eq_some_getLast (List.ne_nil_of_mem hmem)]
  exact congrArg some (hlast _ (List.getLast_mem _))

def mergedHost (merged : MergedPeerResult) (pfr : PeerFetchResult) (host : Str) : Str :=
  if host ∈ pfr.entities.apps.map (·.id) then
    mergedAppId pfr.peerName (merged.apps.map (·.id)) host
  else host

/-- Of the routed ids, the new id of the host, and that one only, ends in the host behind its
first separator. -/
def HostClear (merged : MergedPeerResult) (pfr : PeerFetchResult) (host : Str) : Prop :=
  ∀ id, RoutesBeforeFunctions merged pfr id →
    (appPart id = some host ↔ id = mergedHost merged pfr host ∧ id ≠ host)

theorem routes_mergedHost {merged : MergedPeerResult} {pfr : PeerFetchResult}
    (h : mergedHost merged pfr host ≠ host) :
    RoutesBeforeFunctions merged pfr (mergedHost merged pfr host) := by
  unfold mergedHost at h ⊢
  split
  · rename_i happ
    obtain ⟨app, hmem, rfl⟩ := List.mem_map.mp happ
    exact .inr (.inr (List.mem_map.mpr ⟨app, hmem, rfl⟩))
  · rename_i hother
    exact absurd (if_neg hother) h

section Remap

variable {merged : MergedPeerResult} {pfr : PeerFetchResult}

theorem isSome_routed {id : Str} : ((mergerBeforeFunctions merged pfr).routingTable[id]?).isSome ↔
      RoutesBeforeFunctions merged pfr id := by
  rw [(mergesOthers_mergePeer (visitLast id) merged pfr).routes id]
  split <;> simp_all

/-- In whatever order the routing table is visited, the host becomes its merged app, exactly
if it is clear. -/
theorem getD_appIdRemap_iff {host : Str} :
    (∀ order, ((appIdRemap order (mergerBeforeFunctions merged pfr).routingTable)[host]?).getD
      host = mergedHost merged pfr host) ↔ HostClear merged pfr host := by
  constructor
  · intro h id hrouted
    constructor
    · intro hpart
      have hlast := h (visitLast id)
      rw [remap_visitLast (isSome_routed.mpr hrouted) hpart, Option.getD_some] at hlast
      refine ⟨hlast, ?_⟩
      rintro rfl
      exact absurd (length_of_appPart hpart) (Nat.lt_irrefl _)
    · rintro ⟨rfl, hne⟩
      have hany := h (visitLast host)
      cases hid : (appIdRemap (visitLast host)
          (mergerBeforeFunctions merged pfr).routingTable)[host]? with
      | none =>
        rw [hid, Option.getD_none] at hany
        exact absurd hany.symm hne
      | some id =>
        rw [hid, Option.getD_some] at hany
        rw [← hany]
        exact (appPart_of_remap hid).2
  · intro hclear order
    cases hid : (appIdRemap order (mergerBeforeFunctions merged pfr).routingTable)[host]? with
    | some id =>
      obtain ⟨hsome, hpart⟩ := appPart_of_remap hid
      exact ((hclear id (isSome_routed.mp hsome)).mp hpart).1
    | none =>
      rw [Option.getD_none]
      by_contra hne
      have hrouted := routes_mergedHost (Ne.symm hne)
      have hpart := (hclear _ hrouted).mpr ⟨rfl, Ne.symm hne⟩
      have hsome := remap_isSome_of_appPart order (isSome_routed.mpr hrouted) hpart
      rw [hid] at hsome
      cases hsome

end Remap

theorem stands_hosts (source : Str) :
    Stands functionRule source fun r e => ∀ host ∈ r.hosts, host ∈ e.hosts := by
  refine ⟨?_, ?_, ?_⟩
  · intro r host hhost
    exact hhost
  · intro e r host hhost
    exact mem_appendUnseen.mpr (.inr hhost)
  · intro e r r' he host hhost
    exact mem_appendUnseen.mpr (.inl (he host hhost))

/-- The hosts of a peer's functions as they enter the merge, in whatever order the routing
table is visited: every host that is an app of the peer is the id of its merged app and the
others stay, exactly if every host is clear. New functions get exactly these hosts, and known
ones get them too. -/
theorem hosts_follow_renamed_apps_iff (merged : MergedPeerResult) (pfr : PeerFetchResult) :
    ((∀ order, (remappedFunctions order merged pfr).map (·.hosts) =
        pfr.entities.functions.map fun func => func.hosts.map (mergedHost merged pfr)) ↔
      ∀ func ∈ pfr.entities.functions, ∀ host ∈ func.hosts, HostClear merged pfr host) ∧
    ∀ order,
      (∀ app ∈ pfr.entities.apps, addApp merged pfr app ∈ (mergePeer order merged pfr).apps ∧
        mergedHost merged pfr app.id = (addApp merged pfr app).id) ∧
      ((mergePeer order merged pfr).functions.drop merged.functions.length).map (·.hosts) =
        ((remappedFunctions order merged pfr).filter
          fun func => func.id ∉ merged.functions.map (·.id)).map (·.hosts) ∧
      ∀ func ∈ remappedFunctions order merged pfr, ∃ func' ∈ (mergePeer order merged pfr).functions,
        func'.id = func.id ∧ ∀ host ∈ func.hosts, host ∈ func'.hosts := by
  refine ⟨?_, fun order => ⟨?_, ?_, ?_⟩⟩
  · simp only [← getD_appIdRemap_iff, remappedFunctions, remapHosts, List.map_map,
      Function.comp_def, List.map_inj_left]
    constructor
    · exact fun h func hfunc host hhost order => h order func hfunc host hhost
    · exact fun h order func hfunc host hhost => h func hfunc host hhost order
  · intro app happ
    refine ⟨?_, ?_⟩
    · rw [(mergesOthers_mergePeer order merged pfr).apps]
      exact List.mem_append_right _ (List.mem_map_of_mem happ)
    · rw [mergedHost, if_pos (List.mem_map_of_mem happ), addApp, id_addedApp]
  · have hadded := (merges_functions order merged pfr).added
    rw [List.length_map] at hadded
    refine (congrArg (List.map (·.hosts)) hadded).trans ?_
    rw [List.map_map]
    rfl
  · intro func hfunc
    obtain ⟨func', hmem, hid, hcovers⟩ :=
      (merges_functions order merged pfr).represents _ (stands_hosts _) func hfunc
    exact ⟨func', hmem, hid, hcovers⟩

def driverFunction : SovdFunction := { id := str "drive", hosts := [str "camera", str "wheels"] }

/-- An app whose id contains the separator takes over the hosts named like its tail. -/
theorem host_renamed_to_other_app :
    let camera : App := { id := str "camera" }
    let frontCamera : App := { id := str "front__camera" }
    let pfr : PeerFetchResult :=
      ⟨str "left", { apps := [camera, frontCamera], functions := [driverFunction] }⟩
    let after := mergePeer ComponentRouting.sortedOrder (seedLocal {}) pfr
    after.apps.map (·.id) = [str "camera", str "front__camera"] ∧
    after.functions.map (·.hosts) = [[str "front__camera", str "wheels"]] := by
  decide

/-! ## Forwarded requests -/

theorem str_slash : str "/" = [47] := by decide

def appPath (id rest : Str) : Str := str "/api/v1/apps/" ++ id ++ str "/" ++ rest

theorem forwardRequest_appPath {peers : List Str} {peerName : Str} (hpeer : peerName ∈ peers)
    (id rest : Str) : forwardRequest peers peerName (appPath id rest) =
      .sent peerName (forwardedPath peerName (appPath id rest)) := by
  have happs : str "/api/v1/apps/" = str "/api/v1/" ++ str "apps/" := by decide
  have hpath : str "/api/v1/" <+: appPath id rest := by
    rw [appPath, happs, List.append_assoc, List.append_assoc, List.append_assoc]
    exact List.prefix_append _ _
  rw [forwardRequest, if_neg (not_not_intro hpeer), if_neg (not_not_intro hpath)]

/-- The first occurrence of the peer's prefix starts a segment of the path. -/
def CutAtSegment (peerName path : Str) : Prop :=
  ∃ front, front ++ str "/" <+: path ∧
    findSub (peerName ++ separator) path = some (front.length + 1)

theorem forwardedPath_renamed (peerName id rest : Str) :
    forwardedPath peerName (appPath (peerName ++ separator ++ id) rest) = appPath id rest := by
  let front := str "/api/v1/apps/"
  have hpath : appPath (peerName ++ separator ++ id) rest =
      front ++ (peerName ++ separator ++ (id ++ (str "/" ++ rest))) := by
    simp [appPath, front]
  have hfind := findSub_of_byte (id ++ (str "/" ++ rest))
    (show (95 : Fin 256) ∈ peerName ++ separator from List.mem_append_right _ (by decide))
    (show (95 : Fin 256) ∉ front by decide)
  have hsegment : 0 < front.length ∧ front.getLast? = (str "/").getLast? := by decide
  rw [hpath, forwardedPath]
  simp only [hfind, List.take_left, List.drop_length_add_append, List.drop_left]
  rw [if_pos hsegment]
  simp [appPath, front]

theorem forwardedPath_eq_self_iff {peerName path : Str} :
    forwardedPath peerName path = path ↔ ¬ CutAtSegment peerName path := by
  unfold forwardedPath CutAtSegment
  simp only
  split
  · rename_i pos hfind
    obtain ⟨front, back, rfl, rfl⟩ := findSub_spec hfind
    have hseparator : separator.length = 2 := by decide
    rw [List.take_left, str_slash, List.getLast?_singleton]
    split
    · rename_i hslash
      obtain ⟨before, rfl⟩ := List.getLast?_eq_some_iff.mp hslash.2
      refine iff_of_false ?_ (not_not_intro ⟨before, ?_, ?_⟩)
      · intro heq
        have hlength := congrArg List.length heq
        simp only [List.length_append, List.length_drop, List.length_singleton] at hlength
        omega
      · exact List.prefix_append _ _
      · rw [hfind, List.length_append, List.length_singleton]
    · rename_i hslash
      refine iff_of_true rfl ?_
      rintro ⟨before, hbefore, hpos⟩
      rw [hfind, Option.some.injEq] at hpos
      have heq : before ++ [47] = front :=
        (List.prefix_of_prefix_length_le hbefore (List.prefix_append _ _)
          (by simp [hpos])).eq_of_length (by simp [hpos])
      exact hslash ⟨by omega, List.getLast?_eq_some_iff.mpr ⟨before, heq.symm⟩⟩
  · rename_i hnone
    refine iff_of_true rfl ?_
    rintro ⟨front, -, hfind⟩
    rw [hnone] at hfind
    cases hfind

/-- A request for an app of the peer reaches it under the app's own id, exactly if the app was
renamed or the first occurrence of the peer's prefix in the path does not start a segment. -/
theorem requests_forwarded_under_own_id_iff (order : VisitOrder) (known : PeerEntities)
    (before after : List PeerFetchResult) (pfr : PeerFetchResult) (peers : List Str)
    (hpeer : pfr.peerName ∈ peers) (app : App) (happ : app ∈ pfr.entities.apps) (rest : Str) :
    let app' := addApp (mergePeers order known before) pfr app
    app' ∈ (fetchAndMergePeerEntities order known (before ++ pfr :: after)).apps ∧
    (forwardRequest peers pfr.peerName (appPath app'.id rest) =
        .sent pfr.peerName (appPath app.id rest) ↔
      app.id ∈ (mergePeers order known before).apps.map (·.id) ∨
        ¬ CutAtSegment pfr.peerName (appPath app.id rest)) := by
  intro app'
  refine ⟨?_, ?_⟩
  · have hstep := (mergesPeer_mergePeer order (mergePeers order known before) pfr).apps
    have hmem : app' ∈ (mergePeer order (mergePeers order known before) pfr).apps := by
      rw [hstep]
      exact List.mem_append_right _ (List.mem_map_of_mem happ)
    change app' ∈ ((before ++ pfr :: after).foldl (mergePeer order) (seedLocal known)).apps
    rw [List.foldl_append, List.foldl_cons]
    exact (keepsAll_foldl order after _).1.apps.subset hmem
  · have hid : app'.id =
        mergedAppId pfr.peerName ((mergePeers order known before).apps.map (·.id)) app.id :=
      id_addedApp _ _ app
    rw [forwardRequest_appPath hpeer, hid, mergedAppId]
    by_cases htaken : app.id ∈ (mergePeers order known before).apps.map (·.id)
    · rw [if_pos htaken, forwardedPath_renamed]
      exact iff_of_true rfl (.inl htaken)
    · rw [if_neg htaken, Forwarded.sent.injEq, forwardedPath_eq_self_iff, or_iff_right htaken,
        and_iff_right rfl]

theorem requests_forwarded_under_own_id_for_camera :
    forwardRequest [str "left"] (str "left") (appPath (str "left__camera") (str "data")) =
      .sent (str "left") (appPath (str "camera") (str "data")) :=
  (requests_forwarded_under_own_id_iff ComponentRouting.sortedOrder { apps := [cameraApp] } [] []
    leftPeer [str "left"] (by decide) cameraApp (by decide) (str "data")).2.mpr (.inl (by decide))

/-- An app that kept an id with the peer's prefix is asked for under a cut id. -/
theorem kept_id_cut_on_forwarding :
    let app : App := { id := str "left__camera" }
    let pfr : PeerFetchResult := ⟨str "left", { apps := [app] }⟩
    (fetchAndMergePeerEntities ComponentRouting.sortedOrder {} [pfr]).apps.map (·.id) = [app.id] ∧
    forwardRequest [str "left"] (str "left") (appPath app.id (str "data")) =
      .sent (str "left") (appPath (str "camera") (str "data")) := by
  decide

end Medkit.Gateway.Aggregation
