import GovernanceCore.Decisions.Facade
import GovernanceCore.Framework.Cursor
import GovernanceCore.Framework.Rfc3339
import GovernanceCore.Framework.Timeline

/-!
# The facade in memory

`govhttptest` serves the handlers of the facade over repositories in memory, for the contract tests
of other modules: identifiers are numbered, the clock stands still, decisions are a list, and
approvals are a map whose keys join two identifiers with a NUL.

`seam_refines_facade` says what such a test is worth: for requests whose texts fit the columns of
the tables, every interleaving over the memory is one over the tables, with the same replies and the
same rows. `unfit_requests_part` says where it ends: a request whose texts do not fit is allowed in
memory and never allowed by the tables.
-/

namespace Governance

open Framework

/-! ### The store in memory -/

/-- `Store` of `govhttptest`; the newest entry for a key comes first. -/
structure SeamStore where
  next : Nat
  saved : List PhaseDecisionRecord
  rows : List (String × PhaseApprovalRecord)

/-- `approvalKey`. -/
def approvalKey (changeID phaseID : String) : String := changeID ++ "\x00" ++ phaseID

/-- `Seed`. -/
def SeamStore.seed (m : SeamStore) (rec : PhaseApprovalRecord) : SeamStore :=
  { m with rows := (approvalKey rec.changeID rec.phaseID, rec) :: m.rows }

/-- `NewInMemoryStore` with approvals seeded one after the other. -/
def SeamStore.seeded (gates : List PhaseApprovalRecord) : SeamStore :=
  gates.foldl SeamStore.seed ⟨0, [], []⟩

def detStem : String := "DET-PHASE-DECISION-"

/-- `fmt.Sprintf("DET-PHASE-DECISION-%04d", n)`. -/
def detID (n : Nat) : String := detStem ++ String.ofList (Rfc3339.decimal 4 n)

/-- 1 January 2026. -/
def fixedInstant : Timestamp := 1767225600 * second

/-- The operations in memory. -/
def SeamStore.exec (m : SeamStore) : (o : DecisionOp) → DecisionRes o × SeamStore
  | .newPhaseDecisionID => (detID (m.next + 1), { m with next := m.next + 1 })
  | .nowUTC => (fixedInstant, m)
  | .save rec => (.ok (), { m with saved := m.saved ++ [rec] })
  | .find changeID phaseID => (.ok (m.rows.lookup (approvalKey changeID phaseID)), m)

/-- The facade in memory. -/
def seam : System DecisionRequest Unit SeamStore DecisionOp DecisionRes ErrorReply
    DecisionPayload where
  exec _ := SeamStore.exec
  body := DecisionRequest.handler

/-! ### Identifiers -/

theorem toList_detID (n : Nat) :
    (detID n).toList = detStem.toList ++ Rfc3339.decimal 4 n := by
  rw [detID, String.toList_append, String.toList_ofList]

theorem detID_injective : Function.Injective detID := by
  intro n m h
  have hlist := congrArg String.toList h
  rw [toList_detID, toList_detID] at hlist
  exact Rfc3339.decimal_injective 4 (List.append_cancel_left hlist)

theorem plain_of_mem_detID {n : Nat} {c : Char} (h : c ∈ (detID n).toList) :
    c ≠ '\x00' ∧ (c == ' ') = false := by
  have hstem : detStem.toList.all (fun c => decide (c ≠ '\x00' ∧ (c == ' ') = false)) = true := by
    decide +kernel
  rw [toList_detID] at h
  rcases List.mem_append.mp h with h | h
  · exact of_decide_eq_true (List.all_eq_true.mp hstem c h)
  · have hdigit := Rfc3339.isDigit_of_mem_decimal h
    refine ⟨fun hc => ?_, Bool.eq_false_iff.mpr fun hc => ?_⟩
    · rw [hc] at hdigit
      cases hdigit
    · rw [beq_iff_eq.mp hc] at hdigit
      cases hdigit

theorem trimBlanks_eq_self {s : String} (h : ∀ c ∈ s.toList, (c == ' ') = false) :
    trimBlanks s = s := by
  have hlist : s.toList.rdropWhile (· == ' ') = s.toList :=
    List.rdropWhile_eq_self_iff.mpr fun hl =>
      Bool.eq_false_iff.mp (h _ (List.getLast_mem hl))
  rw [trimBlanks, hlist, String.ofList_toList]

/-- The first ten million identifiers fit the column. -/
theorem charColumn_detID {n : Nat} (hn : n < 10 ^ 7) :
    charColumn 26 (detID n) = .ok (detID n) := by
  have hlen : (detID n).length ≤ 26 := by
    have hdecimal : (Rfc3339.decimal 4 n).length ≤ 7 := by
      rw [Rfc3339.decimal, List.length_map]
      exact Positional.length_fixed_le (by decide) (by decide) hn
    have hstem : detStem.toList.length = 19 := by decide
    rw [← String.length_toList, toList_detID, List.length_append, hstem]
    omega
  rw [charColumn, fitColumn, if_neg fun h => (plain_of_mem_detID h).1 rfl, if_pos hlen]
  exact congrArg Except.ok (trimBlanks_eq_self fun c hc => (plain_of_mem_detID hc).2)

/-! ### Where a call is -/

section Calls

/-- What a call that is about to perform an operation has performed, and which operation it is. -/
inductive Position (req : DecisionRequest) : Log DecisionOp DecisionRes → DecisionOp → Prop where
  | lookup (changeID phaseID : String) (hreq : req = .approvalStatus changeID phaseID) :
      Position req [] (.find changeID phaseID)
  | mint : Position req [] .newPhaseDecisionID
  | stamp (id : String) : Position req [⟨.newPhaseDecisionID, id⟩] .nowUTC
  | save (id : String) (now : Timestamp) (rec : PhaseDecisionRecord)
      (hrecord : req.record id now = some rec) :
      Position req [⟨.newPhaseDecisionID, id⟩, ⟨.nowUTC, now⟩] (.save rec)

theorem position_of_leads {req : DecisionRequest} {log : Log DecisionOp DecisionRes}
    {o : DecisionOp} {k : DecisionRes o → DecisionProgram ErrorReply DecisionPayload}
    (h : req.handler.Leads log (.act o k)) : Position req log o := by
  cases req.shape with
  | refused reply hrecord hbody =>
    rw [hbody] at h
    cases h
  | lookup changeID phaseID hreq hbody =>
    rw [hbody] at h
    cases h with
    | refl => exact .lookup changeID phaseID hreq
    | @act _ _ found _ _ hk =>
      rcases found with err | (_ | rec) <;> cases hk
  | allowed doing record hrecord hbody =>
    rw [hbody, allowing] at h
    cases h with
    | refl => exact .mint
    | @act _ _ id _ _ hk =>
      cases hk with
      | refl => exact .stamp id
      | @act _ _ now _ _ hk =>
        cases hk with
        | refl => exact .save id now _ (hrecord id now)
        | @act _ _ saved _ _ hk => cases saved <;> cases hk

/-- The identifier that a call has been given and has not saved yet. -/
def pendingID (log : Log DecisionOp DecisionRes) : Option String :=
  match log with
  | [⟨.newPhaseDecisionID, id⟩] => some id
  | [⟨.newPhaseDecisionID, id⟩, ⟨.nowUTC, _⟩] => some id
  | _ => none

theorem record_id {req : DecisionRequest} {id : String} {now : Timestamp}
    {rec : PhaseDecisionRecord} (h : req.record id now = some rec) :
    rec.id = id ∧ rec.decision = "allow" := by
  rcases req with (_ | input) | (_ | input) | ⟨changeID, phaseID⟩
  · cases h
  · rw [DecisionRequest.record] at h
    split at h
    · obtain rfl := Option.some.inj h
      exact ⟨rfl, rfl⟩
    · cases h
  · cases h
  · rw [DecisionRequest.record] at h
    split at h
    · obtain rfl := Option.some.inj h
      exact ⟨rfl, rfl⟩
    · cases h
  · cases h

variable {L : DecisionRequest → Prop} {G : Guard SeamStore DecisionOp DecisionRes}
  {m₀ : SeamStore}
  {p : Pool {req // L req} SeamStore DecisionOp DecisionRes ErrorReply DecisionPayload}

/-- The identifiers in use: those of the saved records, and those that calls hold. -/
def idsInUse (p : Pool {req // L req} SeamStore DecisionOp DecisionRes ErrorReply DecisionPayload) :
    List String :=
  p.store.saved.map PhaseDecisionRecord.id ++ p.held fun t => pendingID t.log

/-- **Every identifier is in use once.** -/
theorem idsInUse_perm (hsaved : m₀.saved = []) (hnext : m₀.next = 0)
    (hp : (seam.restrict L).Reach G (Pool.start m₀) p) :
    (idsInUse p).Perm ((List.range p.store.next).map fun k => detID (k + 1)) := by
  induction hp with
  | refl =>
    rw [idsInUse, Pool.start, hsaved, hnext]
    exact .refl _
  | @tail p _ hreach hstep ih =>
    cases hstep with
    | spawn c =>
      rw [idsInUse, Pool.held_spawn rfl]
      exact ih
    | @advance i t o k ch r m' hi ht hex hG =>
      have hlead : t.call.1.handler.Leads t.log (.act o k) := by
        rw [← ht]
        exact System.Reach.leads hreach t (List.mem_of_getElem? hi)
      have hheld := Pool.held_advance (fun t => pendingID t.log) hi k r m'
      have hids : idsInUse (p.advance i t o k r m') = m'.saved.map PhaseDecisionRecord.id
          ++ (p.advance i t o k r m').held fun t => pendingID t.log := rfl
      rw [hids]
      obtain ⟨call, prog, log⟩ := t
      cases position_of_leads hlead with
      | lookup changeID phaseID hreq =>
        obtain ⟨rfl, rfl⟩ := Prod.mk.inj hex
        have hsame := (List.perm_append_right_iff []).mp hheld
        exact (hsame.append_left _).trans ih
      | mint =>
        obtain ⟨rfl, rfl⟩ := Prod.mk.inj hex
        have hmore := (List.append_nil _ ▸ hheld).append_left
          (p.store.saved.map PhaseDecisionRecord.id)
        refine hmore.trans ?_
        rw [← List.append_assoc]
        refine (ih.append_right _).trans (.of_eq ?_)
        change _ = (List.range (p.store.next + 1)).map fun k => detID (k + 1)
        rw [List.range_succ, List.map_append]
        rfl
      | stamp id =>
        obtain ⟨rfl, rfl⟩ := Prod.mk.inj hex
        have hsame := (List.perm_append_right_iff [id]).mp hheld
        exact (hsame.append_left _).trans ih
      | save id now rec hrecord =>
        obtain ⟨rfl, rfl⟩ := Prod.mk.inj hex
        have hless := List.perm_append_comm.trans (List.append_nil _ ▸ hheld)
        change ((p.store.saved ++ [rec]).map PhaseDecisionRecord.id ++ _).Perm _
        rw [List.map_append, List.append_assoc, List.map_singleton, (record_id hrecord).1]
        exact (hless.append_left _).trans ih

end Calls

/-! ### Approvals -/

/-- An identifier that the keys of both stores keep apart from others: it has no NUL and does not
end in a blank. -/
def PlainID (s : String) : Prop := '\x00' ∉ s.toList ∧ trimBlanks s = s

instance (s : String) : Decidable (PlainID s) := inferInstanceAs (Decidable (_ ∧ _))

/-- Approvals that were decided before: rows with plain identifiers, one for a key. -/
structure ApprovalGates where
  rows : List PhaseApprovalRecord
  plain : ∀ g ∈ rows, PlainID g.changeID ∧ PlainID g.phaseID
  unique : ∀ g ∈ rows, ∀ g' ∈ rows, g.changeID = g'.changeID → g.phaseID = g'.phaseID → g = g'

theorem approvalKey_inj {changeID phaseID changeID' phaseID' : String}
    (hchange : '\x00' ∉ changeID.toList) (hphase : '\x00' ∉ phaseID.toList)
    (h : approvalKey changeID phaseID = approvalKey changeID' phaseID') :
    changeID = changeID' ∧ phaseID = phaseID' := by
  have hlist : ∀ a b : String, (approvalKey a b).toList = a.toList ++ '\x00' :: b.toList := by
    intro a b
    rw [approvalKey, String.toList_append, String.toList_append, List.append_assoc]
    rfl
  have heq := congrArg String.toList h
  rw [hlist, hlist] at heq
  obtain ⟨hleft, -, hright⟩ := (List.append_cons_inj_of_notMem hchange hphase).mp heq
  exact ⟨String.toList_injective hleft, String.toList_injective hright⟩

theorem foldl_seed (gates : List PhaseApprovalRecord) : ∀ m : SeamStore,
    gates.foldl SeamStore.seed m = { m with
      rows := (gates.map fun g => (approvalKey g.changeID g.phaseID, g)).reverse ++ m.rows } := by
  induction gates with
  | nil => exact fun m => rfl
  | cons g gates ih =>
    intro m
    rw [List.foldl_cons, ih, SeamStore.seed, List.map_cons, List.reverse_cons, List.append_assoc]
    rfl

theorem mem_rows_seeded {gates : List PhaseApprovalRecord} {key : String}
    {g : PhaseApprovalRecord} :
    (key, g) ∈ (SeamStore.seeded gates).rows ↔ g ∈ gates ∧ key = approvalKey g.changeID g.phaseID := by
  rw [SeamStore.seeded, foldl_seed, List.append_nil, List.mem_reverse, List.mem_map]
  constructor
  · rintro ⟨g', hg', heq⟩
    obtain ⟨rfl, rfl⟩ := Prod.mk.inj heq
    exact ⟨hg', rfl⟩
  · rintro ⟨hg, rfl⟩
    exact ⟨g, hg, rfl⟩

theorem hasKey_iff {gates : ApprovalGates} {g : PhaseApprovalRecord} (hg : g ∈ gates.rows)
    {changeID phaseID : String} (hchange : PlainID changeID) (hphase : PlainID phaseID) :
    g.hasKey changeID phaseID = true ↔ g.changeID = changeID ∧ g.phaseID = phaseID := by
  have hplain := gates.plain g hg
  rw [PhaseApprovalRecord.hasKey, decide_eq_true_eq, hplain.1.2, hplain.2.2, hchange.2, hphase.2]

/-- **Both stores know the same approvals.** -/
theorem lookup_seeded (gates : ApprovalGates) {changeID phaseID : String}
    (hchange : PlainID changeID) (hphase : PlainID phaseID) :
    (SeamStore.seeded gates.rows).rows.lookup (approvalKey changeID phaseID)
      = gates.rows.find? (·.hasKey changeID phaseID) := by
  have hmem : ∀ g, (SeamStore.seeded gates.rows).rows.lookup (approvalKey changeID phaseID)
      = some g → g ∈ gates.rows ∧ changeID = g.changeID ∧ phaseID = g.phaseID := by
    intro g h
    obtain ⟨before, after, hrows, -⟩ := List.lookup_eq_some_iff.mp h
    obtain ⟨hg, hkey⟩ := mem_rows_seeded.mp (hrows ▸ List.mem_append_right _ List.mem_cons_self)
    exact ⟨hg, approvalKey_inj hchange.1 hphase.1 hkey⟩
  cases hfound : gates.rows.find? (·.hasKey changeID phaseID) with
  | none =>
    rw [List.find?_eq_none] at hfound
    refine Option.eq_none_iff_forall_ne_some.mpr fun g hg => ?_
    obtain ⟨hmem, hc, hp⟩ := hmem g hg
    exact hfound g hmem ((hasKey_iff hmem hchange hphase).mpr ⟨hc.symm, hp.symm⟩)
  | some g =>
    have hg := List.mem_of_find?_eq_some hfound
    have hkey := List.find?_some (p := fun g : PhaseApprovalRecord => g.hasKey changeID phaseID) hfound
    obtain ⟨hc, hp⟩ := (hasKey_iff hg hchange hphase).mp hkey
    cases hlookup : (SeamStore.seeded gates.rows).rows.lookup (approvalKey changeID phaseID) with
    | none =>
      rw [List.lookup_eq_none_iff] at hlookup
      refine absurd (hlookup _ (mem_rows_seeded.mpr ⟨hg, rfl⟩)) ?_
      rw [hc, hp]
      simp
    | some g' =>
      obtain ⟨hg', hc', hp'⟩ := hmem g' hlookup
      rw [gates.unique g' hg' g hg (hc'.symm.trans hc.symm) (hp'.symm.trans hp.symm)]

/-! ### The refinement -/

/-- Requests that both stores take alike: the texts of a decision fit the columns, and an approval
is asked for with plain identifiers. -/
def DecisionRequest.Portable : DecisionRequest → Prop
  | .approvalStatus changeID phaseID => PlainID changeID ∧ PlainID phaseID
  | req => ∀ rec, req.record "" 0 = some rec → req.content.isSome = true

/-- Ten million identifiers were not given yet, so that they still fit their column. -/
def fewIDs : Guard SeamStore DecisionOp DecisionRes := fun _ _ _ _ m' => m'.next < 10 ^ 7

/-- The tables have the rows of what the memory has. -/
structure SameRows (gates : ApprovalGates) (m : SeamStore) (s : PhaseTables) : Prop where
  decisions : List.Forall₂ (fun rec row => rec.row = .ok row) m.saved s.decisions
  rows : m.rows = (SeamStore.seeded gates.rows).rows
  approvals : s.approvals = gates.rows

theorem Portable.content_isSome {req : DecisionRequest} (hreq : req.Portable)
    {rec : PhaseDecisionRecord} (hrecord : req.record "" 0 = some rec) :
    req.content.isSome = true := by
  cases req with
  | phase body => exact hreq rec hrecord
  | sensitive body => exact hreq rec hrecord
  | approvalStatus changeID phaseID => cases hrecord

/-- The row of a portable request, with an identifier that fits. -/
theorem row_of_portable {req : DecisionRequest} (hreq : req.Portable) {id : String}
    {now : Timestamp} {rec : PhaseDecisionRecord} (hrecord : req.record id now = some rec)
    (hid : charColumn 26 id = .ok id) :
    ∃ row, rec.row = .ok row ∧ row.id = id := by
  have hblank := record_with hrecord "" 0
  obtain ⟨row, hrow⟩ := Option.isSome_iff_exists.mp (Portable.content_isSome hreq hblank)
  rw [DecisionRequest.content, hblank, Option.bind_some] at hrow
  cases hcolumns : PhaseDecisionRecord.row { rec with id := "", createdAt := 0 } with
  | error err =>
    rw [hcolumns] at hrow
    cases hrow
  | ok row =>
    have hrow := row_with hcolumns hid now
    have hrec : rec = { rec with id := id, createdAt := now } :=
      Option.some.inj (hrecord.symm.trans (record_with hrecord id now))
    exact ⟨_, (congrArg PhaseDecisionRecord.row hrec).trans hrow, rfl⟩

theorem row_fields {rec : PhaseDecisionRecord} {row : PhaseDecisionRow} (h : rec.row = .ok row) :
    charColumn 26 rec.id = .ok row.id ∧ varcharColumn 30 rec.decision = .ok row.decision := by
  obtain ⟨id, hid, h⟩ := exists_of_bind_eq_ok h
  obtain ⟨changeID, -, h⟩ := exists_of_bind_eq_ok h
  obtain ⟨phaseType, -, h⟩ := exists_of_bind_eq_ok h
  obtain ⟨capability, -, h⟩ := exists_of_bind_eq_ok h
  obtain ⟨decision, hdecision, h⟩ := exists_of_bind_eq_ok h
  obtain ⟨agentRole, -, h⟩ := exists_of_bind_eq_ok h
  obtain ⟨strategy, -, h⟩ := exists_of_bind_eq_ok h
  obtain rfl := Except.ok.inj h
  exact ⟨hid, hdecision⟩

/-- A decision that allows can be inserted under a new identifier. -/
theorem insertedRow_eq_ok {rows : List PhaseDecisionRow} {rec : PhaseDecisionRecord}
    {row : PhaseDecisionRow} (hrow : rec.row = .ok row) (hallow : rec.decision = "allow")
    (hid : row.id ∉ rows.map PhaseDecisionRow.id) : insertedRow rows rec = .ok row := by
  have hdecision : row.decision = "allow" := by
    have hcolumn := (row_fields hrow).2
    rw [hallow] at hcolumn
    exact (Except.ok.inj hcolumn).symm
  have hcheck : insertable rows row = .ok () := by
    rw [insertable, hdecision, if_neg (by decide), if_neg hid]
  rw [insertedRow, hrow]
  change (insertable rows row >>= fun _ => pure row) = .ok row
  rw [hcheck]
  rfl

theorem exec_save (s : PhaseTables) {rec : PhaseDecisionRecord} {row : PhaseDecisionRow}
    (h : insertedRow s.decisions rec = .ok row) :
    s.exec ⟨"", 0, none⟩ (.save rec) = (.ok (), { s with decisions := s.decisions ++ [row] }) := by
  rw [PhaseTables.exec, h]

theorem exec_find (s : PhaseTables) {changeID phaseID : String}
    (hchange : '\x00' ∉ changeID.toList) (hphase : '\x00' ∉ phaseID.toList) :
    s.exec ⟨"", 0, none⟩ (.find changeID phaseID)
      = (.ok (s.approvals.find? (·.hasKey changeID phaseID)), s) := by
  rw [PhaseTables.exec, if_neg fun h => h.elim hchange hphase]

/-- **What passes in memory passes over the tables.** Every interleaving of portable requests over
the memory is one over the tables that start with the same approvals: the calls are the same, with
what they have performed and what they have been answered, and the rows are those of the saved
records. -/
theorem seam_refines_facade (gates : ApprovalGates)
    {p : Pool {req // DecisionRequest.Portable req} SeamStore DecisionOp DecisionRes ErrorReply
      DecisionPayload}
    (hp : (seam.restrict DecisionRequest.Portable).Reach fewIDs
      (Pool.start (SeamStore.seeded gates.rows)) p) :
    ∃ s, (facade.restrict DecisionRequest.Portable).Reach unguarded
        (Pool.start ⟨[], gates.rows⟩) ⟨s, p.threads⟩ ∧ SameRows gates p.store s := by
  have hseeded : (SeamStore.seeded gates.rows).saved = []
      ∧ (SeamStore.seeded gates.rows).next = 0 := by
    rw [SeamStore.seeded, foldl_seed]
    exact ⟨rfl, rfl⟩
  have hstart : SameRows gates (SeamStore.seeded gates.rows) ⟨[], gates.rows⟩ :=
    ⟨hseeded.1 ▸ .nil, rfl, rfl⟩
  refine System.Reach.refines (R := fun p s => SameRows gates p.store s) (fun _ => rfl) hstart
    (fun _ _ _ h => h) ?_ hp
  intro p s i t o k ch r m' hreach hR hi ht hex hG
  have hlead : t.call.1.handler.Leads t.log (.act o k) := by
    rw [← ht]
    exact System.Reach.leads hreach t (List.mem_of_getElem? hi)
  have hids := idsInUse_perm hseeded.1 hseeded.2 hreach
  have hmem : t ∈ p.threads := List.mem_of_getElem? hi
  obtain ⟨call, prog, log⟩ := t
  cases position_of_leads hlead with
  | lookup changeID phaseID hreq =>
    obtain ⟨rfl, rfl⟩ := Prod.mk.inj hex
    have hplain : PlainID changeID ∧ PlainID phaseID := by
      have hportable := call.2
      rw [hreq] at hportable
      exact hportable
    refine ⟨⟨"", 0, none⟩, s, (exec_find s hplain.1.1 hplain.2.1).trans ?_, hR⟩
    rw [hR.approvals, hR.rows, lookup_seeded gates hplain.1 hplain.2]
  | mint =>
    obtain ⟨rfl, rfl⟩ := Prod.mk.inj hex
    exact ⟨⟨detID (p.store.next + 1), 0, none⟩, s, rfl, hR.decisions, hR.rows, hR.approvals⟩
  | stamp id =>
    obtain ⟨rfl, rfl⟩ := Prod.mk.inj hex
    exact ⟨⟨"", fixedInstant, none⟩, s, rfl, hR⟩
  | save id now rec hrecord =>
    obtain ⟨rfl, rfl⟩ := Prod.mk.inj hex
    have hpending : id ∈ p.held fun t => pendingID t.log := List.mem_filterMap.mpr ⟨_, hmem, rfl⟩
    have hfits : ∀ x ∈ idsInUse p, charColumn 26 x = .ok x := by
      intro x hx
      obtain ⟨n, hn, rfl⟩ := List.mem_map.mp (hids.mem_iff.mp hx)
      have hnext : p.store.next < 10 ^ 7 := hG
      have hn := List.mem_range.mp hn
      exact charColumn_detID (by omega)
    have hnodup : (idsInUse p).Nodup := hids.nodup_iff.mpr
      (List.nodup_range.map fun a b hab => Nat.succ.inj (detID_injective hab))
    obtain ⟨row, hrow, hid⟩ := row_of_portable call.2 hrecord
      (hfits id (List.mem_append_right _ hpending))
    have hkey : row.id ∉ s.decisions.map PhaseDecisionRow.id := by
      intro h
      obtain ⟨row', hrow', heq⟩ := List.mem_map.mp h
      obtain ⟨rec', hrec', hcolumns⟩ := exists_of_mem_forall₂ hR.decisions hrow'
      have hsaved : rec'.id ∈ p.store.saved.map PhaseDecisionRecord.id := List.mem_map_of_mem hrec'
      have hsame : rec'.id = row'.id := Except.ok.inj
        ((hfits _ (List.mem_append_left _ hsaved)).symm.trans (row_fields hcolumns).1)
      exact List.disjoint_of_nodup_append hnodup hsaved ((hsame.trans (heq.trans hid)) ▸ hpending)
    have hinserted := insertedRow_eq_ok hrow (record_id hrecord).2 hkey
    refine ⟨⟨"", 0, none⟩, { s with decisions := s.decisions ++ [row] }, ?_,
      List.rel_append hR.decisions (.cons hrow .nil), hR.rows, hR.approvals⟩
    exact exec_save s hinserted

/-- An approval that was denied, in both stores. -/
def deniedGate : ApprovalGates where
  rows := [⟨"01J0000000000000000000CHNG", "01J000000000000000000PHASE", "denied"⟩]
  plain := by decide
  unique := by decide

theorem portable_applyPhase : applyPhase.Portable := fun _ _ => by decide +kernel

def deniedStatus : DecisionRequest :=
  .approvalStatus "01J0000000000000000000CHNG" "01J000000000000000000PHASE"

theorem portable_deniedStatus : deniedStatus.Portable :=
  ⟨by decide +kernel, by decide +kernel⟩

/-- A decision and a question for the approval, one step of each in turn. -/
def portableSchedule :
    List (System.Action {req // DecisionRequest.Portable req} Unit) :=
  [.spawn ⟨applyPhase, portable_applyPhase⟩, .spawn ⟨deniedStatus, portable_deniedStatus⟩,
    .advance 0 (), .advance 1 (), .advance 0 (), .advance 0 ()]

/-- What the calls of a pool were answered with. -/
def answersOf {C S : Type}
    (p : Pool C S DecisionOp DecisionRes ErrorReply DecisionPayload) : List DecisionPayload :=
  p.threads.filterMap fun t =>
    match t.prog with
    | .ret payload => some payload
    | _ => none

theorem seam_refines_facade_denied : ∃ s p,
    (facade.restrict DecisionRequest.Portable).Reach unguarded
      (Pool.start ⟨[], deniedGate.rows⟩) ⟨s, p⟩ ∧
    answersOf (⟨s, p⟩ : Pool {req // DecisionRequest.Portable req} PhaseTables DecisionOp
        DecisionRes ErrorReply DecisionPayload)
      = [.decision "allow" "team-lead" "M-E0 default-allow policy", .status "denied"] := by
  have hrun : ((seam.restrict DecisionRequest.Portable).play
      (fun _ _ _ _ m' => decide (m'.next < 10 ^ 7)) (Pool.start (SeamStore.seeded deniedGate.rows))
      portableSchedule).map answersOf
      = some [.decision "allow" "team-lead" "M-E0 default-allow policy", .status "denied"] := by
    decide +kernel
  obtain ⟨p, hp, hanswers⟩ := Option.map_eq_some_iff.mp hrun
  obtain ⟨s, hs, -⟩ := seam_refines_facade deniedGate
    (System.play_reach (fun _ _ _ _ m' h => (of_decide_eq_true h : m'.next < 10 ^ 7)) hp)
  exact ⟨s, p.threads, hs, hanswers⟩

/-! ### Where the stores part -/

/-- The memory takes every record. -/
def memoryAnswers : Contract DecisionOp DecisionRes where
  answers
    | .save _, r => r = .ok ()
    | _, _ => True
  permits _ _ := True

/-- A request for a decision with all its texts ends with a decision. -/
def EndsAllowed (req : DecisionRequest) (res : Except ErrorReply DecisionPayload)
    (_log : Log DecisionOp DecisionRes) : Prop :=
  (req.record "" 0).isSome = true →
    ∃ decision agentRole reason, res = .ok (.decision decision agentRole reason)

theorem seam_keeps : seam.Keeps memoryAnswers EndsAllowed where
  answers := by
    intro ch s s' o r hex
    cases o with
    | save rec => exact (Prod.mk.inj hex).1.symm
    | newPhaseDecisionID => exact trivial
    | nowUTC => exact trivial
    | find changeID phaseID => exact trivial
  follows req := by
    change req.handler.Follows memoryAnswers (EndsAllowed req) []
    cases req.shape with
    | refused reply hrecord hbody =>
      rw [hbody]
      intro h
      rw [hrecord] at h
      cases h
    | lookup changeID phaseID hreq hbody =>
      rw [hbody]
      refine ⟨trivial, fun found _ => ?_⟩
      rw [hreq]
      rcases found with err | (_ | rec) <;> exact fun h => nomatch h
    | allowed doing record hrecord hbody =>
      rw [hbody]
      refine ⟨trivial, fun id _ => ⟨trivial, fun now _ => ⟨trivial, fun saved hsaved => ?_⟩⟩⟩
      obtain rfl : saved = .ok () := hsaved
      exact fun _ => ⟨_, _, _, rfl⟩

/-- **A request whose texts do not fit the columns** is never allowed by the tables, however often
it is made and whatever else happens; in memory every such request is allowed once it has ended. -/
theorem unfit_requests_part {req : DecisionRequest} (hrecord : (req.record "" 0).isSome = true)
    (hunfit : req.content = none) :
    (∀ s₀ p, facade.Reach unguarded (Pool.start s₀) p → p.threads.countP (allowedFor req) = 0) ∧
    ∀ m₀ p, seam.Reach unguarded (Pool.start m₀) p → ∀ t ∈ p.threads, t.call = req →
      allowedFor req t = true ∨ ∃ o k, t.prog = .act o k := by
  constructor
  · intro s₀ p hp
    have hnone : ∀ rows : List PhaseDecisionRow, rows.countP req.left = 0 := fun rows =>
      List.countP_eq_zero.mpr fun row _ h => by
        rw [DecisionRequest.left, hunfit] at h
        cases of_decide_eq_true h
    have hle := (count_allowedFor_le_savedFor hp req).trans
      (Nat.le_of_add_right_le (count_savedFor_le hp req))
    rw [hnone] at hle
    exact Nat.le_zero.mp hle
  · intro m₀ p hp t ht hcall
    have hfollows := System.Reach.inContract seam_keeps System.inContract_start hp t ht
    rw [hcall] at hfollows
    cases hprog : t.prog with
    | act o k => exact Or.inr ⟨o, k, rfl⟩
    | fail reply =>
      rw [hprog] at hfollows
      obtain ⟨_, _, _, h⟩ := hfollows hrecord
      cases h
    | ret payload =>
      rw [hprog] at hfollows
      obtain ⟨_, _, _, h⟩ := hfollows hrecord
      obtain rfl := Except.ok.inj h
      refine Or.inl ?_
      rw [allowedFor, hprog]
      exact decide_eq_true hcall

/-- A phase of a change whose identifier has one character too many. -/
def longChange : DecisionRequest := .phase (some ⟨"01J0000000000000000000CHNGX", "apply", false⟩)

theorem unfit_requests_part_long : (longChange.record "" 0).isSome = true ∧
    longChange.content = none ∧
    ∀ s₀ p, facade.Reach unguarded (Pool.start s₀) p →
      p.threads.countP (allowedFor longChange) = 0 := by
  have hrecord : (longChange.record "" 0).isSome = true := by decide +kernel
  have hunfit : longChange.content = none := by decide +kernel
  exact ⟨hrecord, hunfit, (unfit_requests_part hrecord hunfit).1⟩

end Governance
