import Medkit.FaultManager.AuditHistory
import Medkit.FaultManager.JsonArray

/-! What an edit of the `audit_log` rows can get past verification while the head
row and the anchors stay as they are. SHA-256 is taken to be injective, the JSON
encoder to write self-delimiting literals and to be injective on valid text. -/
namespace Medkit.FaultManager

open Lib HashChain

structure AuditEvent.TextValid (event : AuditEvent) : Prop where
  faultCode : ValidUtf8 event.faultCode
  transition : ValidUtf8 event.transition
  status : ValidUtf8 event.status
  sourceId : ValidUtf8 event.sourceId
  description : ValidUtf8 event.description

structure JsonStringEncoder (jsonEncode : Str → Str) : Prop where
  quoted : ∀ s, IsQuoted (jsonEncode s)
  injOn : ∀ {s t}, ValidUtf8 s → ValidUtf8 t → jsonEncode s = jsonEncode t → s = t

namespace JsonStringEncoder

variable {codec : AuditCodec} (hjson : JsonStringEncoder codec.jsonEncode)

include hjson

theorem append_inj {s t r r' : Str} (hs : ValidUtf8 s) (ht : ValidUtf8 t)
    (h : codec.jsonEncode s ++ r = codec.jsonEncode t ++ r') : s = t ∧ r = r' := by
  obtain ⟨hst, hr⟩ := (hjson.quoted s).append_inj (hjson.quoted t) h
  exact ⟨hjson.injOn hs ht hst, hr⟩

theorem canonicalize_inj {seq : Int} {e e' : AuditEvent} (he : e.TextValid) (he' : e'.TextValid)
    (h : codec.canonicalize seq e = codec.canonicalize seq e') : e = e' := by
  have hkey (key : String) (x y : Str) : str key ++ x = str key ++ y ↔ x = y :=
    List.append_right_inj _
  simp only [AuditCodec.canonicalize, List.append_assoc, hkey, List.append_right_inj] at h
  obtain ⟨hts, h⟩ := intDecimal_append_inj (c := 44) (by decide) h
  obtain ⟨hcode, h⟩ := hjson.append_inj he.faultCode he'.faultCode ((hkey "\"code\":" _ _).mp h)
  obtain ⟨htransition, h⟩ := hjson.append_inj he.transition he'.transition ((hkey _ _ _).mp h)
  obtain ⟨hseverity, h⟩ := decimal_append_inj (c := 44) (by decide) ((hkey _ _ _).mp h)
  obtain ⟨hstatus, h⟩ := hjson.append_inj he.status he'.status ((hkey "\"status\":" _ _).mp h)
  obtain ⟨hsource, h⟩ := hjson.append_inj he.sourceId he'.sourceId ((hkey _ _ _).mp h)
  obtain ⟨hdescription, -⟩ := hjson.append_inj he.description he'.description ((hkey _ _ _).mp h)
  cases e
  cases e'
  simp_all [Fin.ext_iff]

end JsonStringEncoder

def IsHex (s : Str) : Prop := ∀ b ∈ s, isHexByte b

theorem isHex_genesisHash : IsHex genesisHash := by
  intro b hb
  rw [List.eq_of_mem_replicate hb]
  decide

/-- A record hash determines the hash it links to and the event it covers. -/
theorem recordHash_injectiveLink {codec : AuditCodec} (hsha : Function.Injective codec.sha256)
    (hjson : JsonStringEncoder codec.jsonEncode) :
    InjectiveLink codec.recordHash IsHex AuditEvent.TextValid where
  good prev seq event := fun _ hb => isHexByte_of_mem_hexEncode hb
  inj := by
    intro prev prev' seq event event' hprev hprev' hevent hevent' h
    have hdata : prev ++ codec.canonicalize seq event = prev' ++ codec.canonicalize seq event' :=
      hsha (hexEncode_injective h)
    -- the canonical form opens with a brace, which no hash contains
    obtain ⟨hp, -, hrest⟩ := span_append_inj isHexByte (c := 123) (d := 123) hprev hprev'
      (by decide) (by decide) hdata
    exact ⟨hp, hjson.canonicalize_inj hevent hevent' (congrArg (List.cons 123) hrest)⟩

theorem toList_eq_of_map_rowBlock {entries : List (Int × AuditRow)}
    {blocks : List (Block AuditEvent Str)} (h : entries.map rowBlock = blocks) :
    entries = blocks.map blockRow := by
  rw [← h, List.map_map]
  exact (List.map_id _).symm

section Tamper

variable {codec : AuditCodec} {events : List AuditEvent} {lo : Nat} {log : FaultAuditLog}

/-- Where an accepted replacement can start: where the retained rows start, or at
the very first record. -/
theorem AuditInvariant.start_of_anchored (h : AuditInvariant codec events lo log) {seq : Int}
    {prev : Str} (hanchored : Anchored log.db seq prev) :
    ∃ start : Nat, (start = lo ∨ start = 0) ∧ seq = start + 1 ∧
      prev = historyHash codec (events.take start) := by
  unfold Anchored at hanchored
  split at hanchored
  · exact ⟨0, .inr rfl, by omega, hanchored⟩
  · rw [h.anchors] at hanchored
    split at hanchored
    · rename_i hlo
      exact ⟨lo, .inl rfl, by omega, (Option.some.inj hanchored).symm⟩
    · cases hanchored

theorem AuditInvariant.replaced_rows (h : AuditInvariant codec events lo log)
    (hsha : Function.Injective codec.sha256) (hjson : JsonStringEncoder codec.jsonEncode)
    (hevents : ∀ e ∈ events, e.TextValid) {rows : OMap Int AuditRow}
    (hrows : ∀ entry ∈ rows.toList, entry.2.event.TextValid)
    (hok : (FaultAuditLog.verify codec { log.db with auditLog := rows }).ok = true) :
    rows = log.db.auditLog ∨ rows.toList = (historyTail codec events 0).map blockRow := by
  have hlink := recordHash_injectiveLink hsha hjson
  rw [FaultAuditLog.verify_ok_iff] at hok
  dsimp only at hok
  cases hlist : rows.toList with
  | nil =>
    rw [hlist] at hok
    -- an emptied log would need its head sealed, and the anchor lies below the head
    have hempty : events = [] := by
      by_contra hne
      have hlo := h.lo_lt hne
      have hseal := hok _ (h.chainHead_of_ne_nil hne) (by dsimp only; omega)
      rw [h.anchors, if_neg (by dsimp only; omega)] at hseal
      cases hseal
    subst hempty
    exact .inr (by simp [historyTail, chainTail])
  | cons oldest rest =>
    rw [hlist] at hok
    obtain ⟨hanchored, hlinked, hhead⟩ := hok
    obtain ⟨start, hstart, hseq, hprev⟩ := h.start_of_anchored hanchored
    have hne : events ≠ [] := by
      intro hnil
      rw [h.chainHead, if_pos hnil] at hhead
      cases hhead
    rw [h.chainHead_of_ne_nil hne] at hhead
    obtain ⟨hlast, hhash⟩ := ChainHead.mk.inj (Option.some.inj hhead)
    rw [hseq, hprev] at hlinked hlast hhash
    have hend : chainEnd ((start : Int) + 1) (historyHash codec (events.take start))
        ((oldest :: rest).map rowBlock) =
          ((events.length : Int) + 1, historyHash codec events) :=
      Prod.ext (by dsimp only; omega) hhash.symm
    have hblocks := hlink.eq_chainTail isHex_genesisHash hevents
      (fun b hb => by
        obtain ⟨entry, hentry, rfl⟩ := List.mem_map.mp hb
        exact hrows entry (hlist ▸ hentry))
      (hlink.good_digest isHex_genesisHash _) hlinked hend
    have htail : rows.toList = (historyTail codec events start).map blockRow :=
      hlist.trans (toList_eq_of_map_rowBlock hblocks)
    rcases hstart with rfl | rfl
    · exact .inl (OMap.ext_toList (htail.trans h.rows.symm))
    · exact .inr (hlist ▸ htail)

end Tamper

/-! ## Runs -/

def AuditCall.TextValid : AuditCall → Prop
  | .append event _ _ => event.TextValid
  | .reopen _ => True

theorem appendedEvents_textValid {codec : AuditCodec} {retention : Int} {log : FaultAuditLog}
    {h : List (Event FaultAuditLog AuditCall (Option Int))}
    (hr : (auditMachine codec retention).Runs (fun _ call => call.TextValid) h log) :
    ∀ e ∈ appendedEvents h, e.TextValid := by
  apply hr.invariant (fun h _ => ∀ e ∈ appendedEvents h, e.TextValid)
  · simp [appendedEvents]
  · intro h log call _ hcall hold e he
    cases call with
    | reopen retention' => exact hold e he
    | append event appendFails rotateFails =>
      simp only [auditMachine] at he
      cases hout : (log.append codec event appendFails rotateFails).2 with
      | none =>
        rw [hout] at he
        exact hold e he
      | some seq =>
        rw [hout, appendedEvents, List.mem_append, List.mem_singleton] at he
        rcases he with he | rfl
        · exact hold e he
        · exact hcall

/-- Replaced rows verify only as the retained records or as the whole history that
was ever appended, each record as it was written. -/
theorem replaced_rows_verify_only_as_history {codec : AuditCodec}
    (hsha : Function.Injective codec.sha256) (hjson : JsonStringEncoder codec.jsonEncode)
    {retention : Int} {log : FaultAuditLog}
    {h : List (Event FaultAuditLog AuditCall (Option Int))}
    (hr : (auditMachine codec retention).Runs (fun _ call => call.TextValid) h log)
    {rows : OMap Int AuditRow} (hrows : ∀ entry ∈ rows.toList, entry.2.event.TextValid)
    (hok : (FaultAuditLog.verify codec { log.db with auditLog := rows }).ok = true) :
    rows = log.db.auditLog ∨
      rows.toList = (historyTail codec (appendedEvents h) 0).map blockRow := by
  obtain ⟨lo, hinv⟩ := auditInvariant_of_run hr
  exact hinv.replaced_rows hsha hjson (appendedEvents_textValid hr) hrows hok

theorem isQuoted_quoteString (s : Str) : IsQuoted (quoteString s) := by
  refine ⟨s.flatMap escapeByte ++ [34], rfl, ?_⟩
  induction s with
  | nil => exact afterQuote_quote []
  | cons b s ih =>
    rw [List.flatMap_cons, List.append_assoc]
    unfold escapeByte
    split_ifs with h₁ h₂
    all_goals first
      | exact ih
      | (rw [List.singleton_append, afterQuote_plain h₁ h₂]; exact ih)

/-- A codec that meets the assumptions: data as its own hash, and the escapes of
the storage layer. -/
def plainCodec : AuditCodec := ⟨id, quoteString⟩

theorem plainCodec_jsonStringEncoder : JsonStringEncoder plainCodec.jsonEncode where
  quoted := isQuoted_quoteString
  injOn := fun _ _ h => quoteString_injective h

theorem sampleAuditEvent_textValid : sampleAuditEvent.TextValid :=
  ⟨⟨_, rfl⟩, ⟨_, rfl⟩, ⟨_, rfl⟩, ⟨_, rfl⟩, ⟨"", rfl⟩⟩

def twoAppends : List AuditCall :=
  [.append sampleAuditEvent none none, .append sampleAuditEvent none none]

def prunedLog : FaultAuditLog :=
  (auditMachine plainCodec 1).exec (FaultAuditLog.openLog {} 1) twoAppends

def unprunedRows : OMap Int AuditRow :=
  ((auditMachine plainCodec 0).exec (FaultAuditLog.openLog {} 0) twoAppends).db.auditLog

theorem unprunedRows_textValid : ∀ entry ∈ unprunedRows.toList, entry.2.event.TextValid := by
  have hevents : unprunedRows.toList.map (·.2.event) = [sampleAuditEvent, sampleAuditEvent] := by
    decide
  intro entry hentry
  have hmem : entry.2.event ∈ unprunedRows.toList.map (·.2.event) :=
    List.mem_map.mpr ⟨entry, hentry, rfl⟩
  rw [hevents] at hmem
  have heq : entry.2.event = sampleAuditEvent := by simpa using hmem
  exact heq ▸ sampleAuditEvent_textValid

theorem unprunedRows_verify :
    (FaultAuditLog.verify plainCodec { prunedLog.db with auditLog := unprunedRows }).ok = true := by
  decide +kernel

theorem unprunedRows_ne : unprunedRows ≠ prunedLog.db.auditLog := by
  intro heq
  have hsize : unprunedRows.size ≠ prunedLog.db.auditLog.size := by decide
  exact hsize (congrArg Std.ExtTreeMap.size heq)

theorem replaced_rows_verify_only_as_history_restored :
    unprunedRows.toList =
      (historyTail plainCodec [sampleAuditEvent, sampleAuditEvent] 0).map blockRow := by
  have hr : (auditMachine plainCodec 1).Runs (fun _ call => call.TextValid)
      ((auditMachine plainCodec 1).history [] (FaultAuditLog.openLog {} 1) twoAppends) prunedLog :=
    Machine.Runs.start.exec _ ⟨sampleAuditEvent_textValid, sampleAuditEvent_textValid, trivial⟩
  have hevents : appendedEvents ((auditMachine plainCodec 1).history []
      (FaultAuditLog.openLog {} 1) twoAppends) = [sampleAuditEvent, sampleAuditEvent] := by
    decide
  rw [← hevents]
  exact (replaced_rows_verify_only_as_history Function.injective_id plainCodec_jsonStringEncoder hr
    unprunedRows_textValid unprunedRows_verify).resolve_left unprunedRows_ne

/-- Putting the pruned record back verifies, so an accepted log need not be the
retained one. -/
theorem restored_prefix_verifies :
    Function.Injective plainCodec.sha256 ∧ JsonStringEncoder plainCodec.jsonEncode ∧
      (auditMachine plainCodec 1).Reachable prunedLog ∧
      (∀ entry ∈ unprunedRows.toList, entry.2.event.TextValid) ∧
      (FaultAuditLog.verify plainCodec { prunedLog.db with auditLog := unprunedRows }).ok = true ∧
      unprunedRows ≠ prunedLog.db.auditLog :=
  ⟨Function.injective_id, plainCodec_jsonStringEncoder, Machine.reachable_exec _ _,
    unprunedRows_textValid, unprunedRows_verify, unprunedRows_ne⟩

end Medkit.FaultManager
