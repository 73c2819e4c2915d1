import GovernanceCore.Framework.Rfc3339
import GovernanceCore.Store.Listing

/-!
# The texts of transition times

`workflow_runs.transitions` holds the log of a run as JSON, with the time of each transition as a
text. `marshalTransitions` writes it at the offset of the zone that the time was taken in, and
`mustParseTime` panics on a text that it cannot read, "only use for data written by this package".
This is the level below `StoredTime`: what `StoredTime` tells apart is decided here by the text.

A run is read and written many times. Each time the whole log goes through its texts, and each time
new transitions are appended (`rewriteColumn`). `stored_times_survive` follows a column that can be
read through any number of updates: no read panics, and each time settles with the first text that
it is given. The column need not have been written by the package.
-/

namespace Governance

open Framework Framework.Rfc3339

/-- The zero value of `time.Time`, 1 January of year 1. -/
def zeroTime : Timestamp := -62135596800 * second

/-- A transition in memory: its time keeps the offset of its zone, in seconds. -/
structure ZonedTransition where
  transition : WorkflowTransition
  offset : Int
  deriving DecidableEq

/-- An element of the column: a `transitionJSON` with its text. -/
structure TransitionText where
  source : WorkflowStatus
  target : WorkflowStatus
  reason : String
  actor : ActorID
  timestamp : String
  deriving DecidableEq

namespace ZonedTransition

def moment (z : ZonedTransition) : Moment := ⟨z.transition.timestamp, z.offset⟩

/-- The body of the loop of `marshalTransitions`. -/
def toText (z : ZonedTransition) : TransitionText where
  source := z.transition.source
  target := z.transition.target
  reason := z.transition.reason
  actor := z.transition.actor
  timestamp := String.ofList (format z.moment)

end ZonedTransition

/-- `marshalTransitions`; there is nothing in the items that `json.Marshal` could refuse. -/
def marshalTransitions (transitions : List ZonedTransition) : List TransitionText :=
  transitions.map ZonedTransition.toText

/-- `time.Parse` on the text of a time, and `IsZero` on its result. -/
def StoredTime.ofText (text : String) : StoredTime :=
  match parse text.toList with
  | none => .malformed text
  | some m => if m.instant = zeroTime then .zero else .instant m.instant

def TransitionText.toJSON (item : TransitionText) : TransitionJSON :=
  ⟨item.source, item.target, item.reason, item.actor, .ofText item.timestamp⟩

/-- The offset of the zone in which a time is read. -/
def TransitionText.offset (item : TransitionText) : Int :=
  match parse item.timestamp.toList with
  | none => 0
  | some m => m.offset

/-- The body of the loop of `unmarshalTransitions`, with the zones of the times. -/
def unmarshalText (item : TransitionText) : Except Abort ZonedTransition :=
  match unmarshalTransition item.toJSON with
  | .error abort => .error abort
  | .ok transition => .ok ⟨transition, item.offset⟩

/-- `unmarshalTransitions`, with the zones of the times. -/
def unmarshalTexts (column : List TransitionText) : Except Abort (List ZonedTransition) :=
  scanLoop unmarshalText appendDecoded [] column

/-- An update of a run: the column is read, transitions are appended, and all of it is written. -/
def rewriteColumn (column : List TransitionText) (appended : List ZonedTransition) :
    Except Abort (List TransitionText) :=
  match unmarshalTexts column with
  | .error abort => .error abort
  | .ok transitions => .ok (marshalTransitions (transitions ++ appended))

/-! ### One transition -/

namespace ZonedTransition

/-- The transition with the time that its text denotes: the seconds of the offset are lost. -/
def settled (z : ZonedTransition) : ZonedTransition where
  transition := { z.transition with timestamp := z.moment.settled.instant }
  offset := z.moment.settled.offset

/-- A time whose text can be read, and is not the zero time. -/
def Storable (z : ZonedTransition) : Prop :=
  z.moment.Writable ∧ z.settled.transition.timestamp ≠ zeroTime

instance (z : ZonedTransition) : Decidable z.Storable := inferInstanceAs (Decidable (_ ∧ _))

theorem settled_of_dvd {z : ZonedTransition} (h : 60 ∣ z.offset) : z.settled = z := by
  rw [settled, Moment.settled_of_dvd h]
  rfl

theorem settled_settled (z : ZonedTransition) : z.settled.settled = z.settled :=
  settled_of_dvd (dvd_wholeMinutes z.offset)

theorem storable_settled {z : ZonedTransition} (h : z.Storable) : z.settled.Storable := by
  refine ⟨h.1.settled, ?_⟩
  rw [settled_settled]
  exact h.2

theorem parse_of_unmarshalText {item : TransitionText} {z : ZonedTransition}
    (h : unmarshalText item = .ok z) :
    parse item.timestamp.toList = some z.moment ∧ z.transition.timestamp ≠ zeroTime := by
  rw [unmarshalText, TransitionText.toJSON, TransitionText.offset, StoredTime.ofText] at h
  cases hparse : parse item.timestamp.toList with
  | none =>
    rw [hparse] at h
    cases h
  | some m =>
    rw [hparse] at h
    dsimp only at h
    by_cases hzero : m.instant = zeroTime
    · rw [if_pos hzero] at h
      cases h
    · rw [if_neg hzero] at h
      obtain rfl := Except.ok.inj h
      exact ⟨rfl, hzero⟩

/-- What was read can be written, unless its offset is the one of 25 hours. -/
theorem storable_of_unmarshalText {item : TransitionText} {z : ZonedTransition}
    (h : unmarshalText item = .ok z) (hoffset : z.offset.natAbs ≠ 25 * 3600) :
    z.Storable ∧ z.settled = z := by
  obtain ⟨hparse, hzero⟩ := parse_of_unmarshalText h
  obtain ⟨hwritable, hminutes⟩ := writable_of_parse hparse hoffset
  have hsettled : z.settled = z := settled_of_dvd hminutes
  refine ⟨⟨hwritable, ?_⟩, hsettled⟩
  rw [hsettled]
  exact hzero

theorem unmarshalText_toText {z : ZonedTransition} (h : z.Storable) :
    unmarshalText z.toText = .ok z.settled := by
  have hparse : parse z.toText.timestamp.toList = some z.settled.moment := by
    rw [toText, String.toList_ofList]
    exact parse_format h.1
  have htime : StoredTime.ofText z.toText.timestamp
      = .instant z.settled.transition.timestamp := by
    rw [StoredTime.ofText, hparse]
    exact if_neg h.2
  rw [unmarshalText, TransitionText.toJSON, htime, TransitionText.offset, hparse]
  rfl

end ZonedTransition

/-! ### The column -/

theorem unmarshalTexts_marshalTransitions {zs : List ZonedTransition} (h : ∀ z ∈ zs, z.Storable) :
    unmarshalTexts (marshalTransitions zs) = .ok (zs.map ZonedTransition.settled) := by
  refine scanLoop_append_eq_ok ?_
  rw [marshalTransitions, List.forall₂_map_left_iff, List.forall₂_map_right_iff, List.forall₂_same]
  exact fun z hz => ZonedTransition.unmarshalText_toText (h z hz)

/-- Any number of updates, from what was read last. -/
theorem foldlM_rewriteColumn {updates : List (List ZonedTransition)}
    (hupdates : ∀ z ∈ updates.flatten, z.Storable) :
    ∀ {column : List TransitionText} {zs : List ZonedTransition},
      unmarshalTexts column = .ok zs → (∀ z ∈ zs, z.Storable ∧ z.settled = z) →
      ∃ column', updates.foldlM rewriteColumn column = .ok column' ∧
        unmarshalTexts column' = .ok (zs ++ updates.flatten.map ZonedTransition.settled) := by
  induction updates with
  | nil =>
    intro column zs hread _
    refine ⟨column, rfl, ?_⟩
    rw [List.flatten_nil, List.map_nil, List.append_nil]
    exact hread
  | cons appended updates ih =>
    intro column zs hread hzs
    rw [List.flatten_cons] at hupdates ⊢
    have happended : ∀ z ∈ appended, z.Storable := fun z hz =>
      hupdates z (List.mem_append_left _ hz)
    -- the next read returns what was read now, and what is appended as it settles
    have hnext : unmarshalTexts (marshalTransitions (zs ++ appended))
        = .ok (zs ++ appended.map ZonedTransition.settled) := by
      have hsettled : zs.map ZonedTransition.settled = zs :=
        (List.map_congr_left fun z hz => (hzs z hz).2).trans (List.map_id zs)
      rw [unmarshalTexts_marshalTransitions, List.map_append, hsettled]
      intro z hz
      exact (List.mem_append.mp hz).elim (fun hz => (hzs z hz).1) (happended z)
    obtain ⟨column', hrun, hread'⟩ := ih
      (fun z hz => hupdates z (List.mem_append_right _ hz)) hnext (fun z hz => by
        rcases List.mem_append.mp hz with hz | hz
        · exact hzs z hz
        · obtain ⟨y, hy, rfl⟩ := List.mem_map.mp hz
          exact ⟨ZonedTransition.storable_settled (happended y hy), y.settled_settled⟩)
    refine ⟨column', ?_, ?_⟩
    · rw [List.foldlM_cons, rewriteColumn, hread]
      exact hrun
    · rw [hread', List.map_append, List.append_assoc]

/-- What was decoded one by one. -/
theorem forall₂_of_unmarshalTexts {column : List TransitionText} {zs : List ZonedTransition}
    (h : unmarshalTexts column = .ok zs) :
    List.Forall₂ (fun item z => unmarshalText item = .ok z) column zs := by
  obtain ⟨as, has, hnote⟩ := (scanLoop_eq_ok_iff unmarshalText appendDecoded).mp h
  rw [noteAll_appendDecoded [] has.length_eq, List.nil_append] at hnote
  rwa [hnote]

/-- What the reader of rows gets from the texts. -/
theorem unmarshalTransitions_toJSON_texts {column : List TransitionText}
    {zs : List ZonedTransition} (h : unmarshalTexts column = .ok zs) :
    unmarshalTransitions (.ok (column.map TransitionText.toJSON))
      = .ok (zs.map ZonedTransition.transition) := by
  refine scanLoop_append_eq_ok ?_
  rw [List.forall₂_map_left_iff, List.forall₂_map_right_iff]
  refine (forall₂_of_unmarshalTexts h).imp fun item z hz => ?_
  rw [unmarshalText] at hz
  split at hz
  · cases hz
  · next transition htransition =>
    obtain rfl := Except.ok.inj hz
    exact htransition

/-- **The log survives its texts.** A column that can be read, and no offset in it is one of 25
hours, can be read after any number of updates. The last read returns what the first one returned
and every transition that was appended since, in order and with its time moved by less than a
minute; in zones with offsets of whole minutes the times are the same. -/
theorem stored_times_survive (updates : List (List ZonedTransition))
    (h : ∀ z ∈ updates.flatten, z.Storable) (column : List TransitionText)
    (zs : List ZonedTransition) (hread : unmarshalTexts column = .ok zs)
    (hoffset : ∀ z ∈ zs, z.offset.natAbs ≠ 25 * 3600) :
    ∃ column', updates.foldlM rewriteColumn column = .ok column' ∧
      unmarshalTransitions (.ok (column'.map TransitionText.toJSON))
        = .ok (zs.map ZonedTransition.transition
            ++ updates.flatten.map fun z => z.settled.transition) ∧
      ∀ z ∈ updates.flatten,
        (z.settled.transition.timestamp - z.transition.timestamp).natAbs < minute.natAbs ∧
        (60 ∣ z.offset → z.settled = z) := by
  have hzs : ∀ z ∈ zs, z.Storable ∧ z.settled = z := by
    intro z hz
    obtain ⟨item, -, hitem⟩ := exists_of_mem_forall₂ (forall₂_of_unmarshalTexts hread) hz
    exact ZonedTransition.storable_of_unmarshalText hitem (hoffset z hz)
  obtain ⟨column', hrun, hread'⟩ := foldlM_rewriteColumn h hread hzs
  refine ⟨column', hrun, ?_, fun z _ => ⟨z.moment.settled_near, ZonedTransition.settled_of_dvd⟩⟩
  rw [unmarshalTransitions_toJSON_texts hread', List.map_append, List.map_map]
  rfl

/-- A routing in a zone three hours behind UTC, and a policy check in one that still has the offset
of its meridian, -4:56:02, and so comes back two seconds early. -/
def routedThenChecked : List (List ZonedTransition) :=
  [[⟨⟨.created, .routed, "", systemActor, 1700000000123456000⟩, -10800⟩],
    [⟨⟨.routed, .policyChecked, "", systemActor, 1700000001000000000⟩, -17762⟩]]

theorem stored_times_survive_two_zones :
    ∃ column, routedThenChecked.foldlM rewriteColumn [] = .ok column ∧
      unmarshalTransitions (.ok (column.map TransitionText.toJSON))
        = .ok [⟨.created, .routed, "", systemActor, 1700000000123456000⟩,
            ⟨.routed, .policyChecked, "", systemActor, 1699999999000000000⟩] := by
  obtain ⟨column, hrun, hread, -⟩ := stored_times_survive routedThenChecked
    (by decide +kernel) [] [] rfl (fun _ hz => nomatch hz)
  exact ⟨column, hrun, hread⟩

end Governance
