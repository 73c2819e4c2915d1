import GovernanceCore.Framework.Drawing
import GovernanceCore.Trace.Traceparent

/-!
# Propagation of traces

The functions of `internal/domain/trace` that draw random bytes, and the middleware `TraceW3C` that
gives every request a trace. They are drawings: the random source is a parameter of the source code
too, and which bytes a function gets depends on what was read before.

A context is what it holds for the trace package: a trace or none. What the middleware does with a
request is what it hands to the next handler, what it sets on the response, and what it logs.

Every function keeps one property, `Trace.Valid`, as long as the bytes it draws are not all zero;
and the valid traces are the ones that are read back from the header that is written for them
(`parse_string_iff`). So what is echoed and what is sent on by a child span can be parsed by the
other side (`traceW3C_propagates`).
-/

namespace Governance

open Framework

namespace Trace

/-! ### The source -/

/-- `if err != nil` after a read. -/
def orContext {α : Type} (msg : String) : Except Err α → Drawing Err α
  | .ok a => .ret a
  | .error err => .fail (err.context msg)

/-- `New`. -/
def new : Drawing Err Trace := do
  let traceBytes ← orContext "trace.New: read trace_id" (← Drawing.readFull 16)
  let spanBytes ← orContext "trace.New: read span_id" (← Drawing.readFull 8)
  return ⟨Hex.encode traceBytes, Hex.encode spanBytes, true⟩

/-- `WithNewSpan`. -/
def withNewSpan (t : Trace) : Drawing Err Trace := do
  let spanBytes ← orContext "trace.WithNewSpan: read span_id" (← Drawing.readFull 8)
  return ⟨t.traceID, Hex.encode spanBytes, t.sampled⟩

/-- `FromRequestID`. -/
def fromRequestID (u : Unicode) (requestID : Bytes) : Drawing Err Trace := do
  let traceID := normaliseRequestID u requestID
  let spanBytes ← orContext "trace.FromRequestID: read span_id" (← Drawing.readFull 8)
  return ⟨traceID, Hex.encode spanBytes, true⟩

/-- The trace of a `context.Context`. -/
abbrev Context := Option Trace

/-- `NewContext`. -/
def newContext (_ctx : Context) (t : Trace) : Context := some t

/-- `ChildSpan`. With an error the context of the caller is returned as it was. -/
def childSpan (ctx : Context) : Drawing Err (Context × Trace) := do
  let child ← match ctx with
    | some parent => parent.withNewSpan
    | none => new
  return (newContext ctx child, child)

end Trace

open Trace

/-- A request: the values of two of its headers, empty when a header is absent, and its context. -/
structure TraceRequest where
  traceparent : Bytes
  requestID : Bytes
  context : Context

/-- The warning about a malformed header. -/
structure TraceWarning where
  rawHeader : Bytes
  error : Err

/-- What the middleware does: the context of the request that it hands on, the `Traceparent` header
it sets on the response, if any, and what it logs. -/
structure Served where
  context : Context
  echoed : Option Bytes
  warning : Option TraceWarning

/-- `traceFromRequest`. -/
def traceFromRequest (u : Unicode) (r : TraceRequest) : Drawing Err Trace :=
  if r.traceparent ≠ [] then
    match parse u r.traceparent with
    | .ok t => .ret t
    | .error err => .fail err
  else if r.requestID ≠ [] then fromRequestID u r.requestID
  else new

/-- The trace goes into the context and onto the response. -/
def serveTraced (r : TraceRequest) (warning : Option TraceWarning) (t : Trace) : Served :=
  ⟨newContext r.context t, some t.string, warning⟩

/-- `TraceW3C`. -/
def traceW3C (u : Unicode) (r : TraceRequest) : Drawing Err Served := do
  match ← (traceFromRequest u r).attempt with
  | .ok t => return serveTraced r none t
  | .error err =>
    let warning : TraceWarning := ⟨r.traceparent, err⟩
    match ← new.attempt with
    -- Last resort: the request is served without a trace.
    | .error _ => return ⟨r.context, none, some warning⟩
    | .ok fresh => return serveTraced r (some warning) fresh

/-! ### What each function returns -/

namespace Trace

theorem returns_new : Returns new fun t => t.Valid := by
  refine Returns.readFull_bind fun traceBytes htrace htraceNe => ?_
  refine Returns.readFull_bind fun spanBytes hspan hspanNe => ?_
  exact Returns.ret ⟨idText_encode htrace htraceNe, idText_encode hspan hspanNe⟩

theorem returns_withNewSpan {t : Trace} (ht : t.Valid) :
    Returns t.withNewSpan fun child => child.Valid ∧ child.traceID = t.traceID := by
  refine Returns.readFull_bind fun spanBytes hspan hspanNe => ?_
  exact Returns.ret ⟨⟨ht.traceID, idText_encode hspan hspanNe⟩, rfl⟩

theorem returns_fromRequestID (u : Unicode) (id : Bytes) : Returns (fromRequestID u id)
    fun t => t.Valid ∧ t.traceID = normaliseRequestID u id := by
  refine Returns.readFull_bind fun spanBytes hspan hspanNe => ?_
  exact Returns.ret ⟨⟨idText_normaliseRequestID u id, idText_encode hspan hspanNe⟩, rfl⟩

theorem returns_childSpan {t : Trace} (ht : t.Valid) : Returns (childSpan (some t))
    fun (ctx, child) => ctx = some child ∧ child.Valid ∧ child.traceID = t.traceID := by
  refine (returns_withNewSpan ht).bind fun child hchild => ?_
  exact Returns.ret ⟨rfl, hchild⟩

end Trace

/-! ### The middleware -/

/-- A request without a `Traceparent` header is not parsed. -/
theorem parse_nil_ne_ok (u : Unicode) (t : Trace) : parse u [] ≠ .ok t := by
  intro h
  cases h

/-- **What the middleware is for**: the trace in the context is the one that the response names; it
is the caller's, if the caller sent one, and has the trace id of the caller's request id, if it sent
only that. -/
structure Propagates (u : Unicode) (r : TraceRequest) (served : Served) (t : Trace) : Prop where
  context : served.context = some t
  echoed : ∃ h, served.echoed = some h ∧ parse u h = .ok t
  parsed : ∀ t', parse u r.traceparent = .ok t' → t = t'
  requestID : r.traceparent = [] → r.requestID ≠ [] → t.traceID = normaliseRequestID u r.requestID

section Middleware

variable {u : Unicode} {r : TraceRequest}

/-- A valid trace that agrees with the headers is propagated. -/
theorem returns_serveTraced {t : Trace} (warning : Option TraceWarning) (ht : t.Valid)
    (hparsed : ∀ t', parse u r.traceparent = .ok t' → t = t')
    (hid : r.traceparent = [] → r.requestID ≠ [] → t.traceID = normaliseRequestID u r.requestID) :
    Returns (.ret (serveTraced r warning t) : Drawing Err Served) fun served =>
      ∃ t, t.Valid ∧ Propagates u r served t :=
  Returns.ret ⟨t, ht, rfl, ⟨_, rfl, (parse_string_iff u).mpr ht⟩, hparsed, hid⟩

/-- Where the trace of a request comes from. -/
theorem traceFromRequest_attempt_bind {f : Except Err Trace → Drawing Err Served}
    {Q : Served → Prop}
    (hok : ∀ t, t.Valid → (∀ t', parse u r.traceparent = .ok t' → t = t') →
      (r.traceparent = [] → r.requestID ≠ [] → t.traceID = normaliseRequestID u r.requestID) →
      Returns (f (.ok t)) Q)
    (herror : ∀ err, parse u r.traceparent = .error err → r.traceparent ≠ [] →
      Returns (f (.error err)) Q) :
    Returns ((traceFromRequest u r).attempt >>= f) Q := by
  -- a value that is drawn is passed on; only a malformed header is an error
  have hdrawn : ∀ {p : Drawing Err Trace}, Returns p (fun t => t.Valid ∧
      (r.traceparent = [] → r.requestID ≠ [] → t.traceID = normaliseRequestID u r.requestID)) →
      r.traceparent = [] → Returns (p.attempt >>= f) Q := by
    intro p hp hnil
    refine hp.attempt_bind fun t ⟨ht, hid⟩ => hok t ht (fun t' hparse => ?_) hid
    rw [hnil] at hparse
    exact absurd hparse (parse_nil_ne_ok u t')
  unfold traceFromRequest
  by_cases hne : r.traceparent ≠ []
  · rw [if_pos hne]
    cases hparse : parse u r.traceparent with
    | ok t =>
      refine hok t (valid_of_parse u hparse) (fun t' h' => ?_) fun hnil => absurd hnil hne
      exact Except.ok.inj (hparse.symm.trans h')
    | error err => exact herror err hparse hne
  rw [if_neg hne]
  have hnil := not_not.mp hne
  by_cases hid : r.requestID ≠ []
  · rw [if_pos hid]
    exact hdrawn ((returns_fromRequestID u r.requestID).mono fun t ht => ⟨ht.1, fun _ _ => ht.2⟩)
      hnil
  · rw [if_neg hid]
    exact hdrawn (returns_new.mono fun t ht => ⟨ht, fun _ h => absurd h hid⟩) hnil

theorem returns_traceW3C (u : Unicode) (r : TraceRequest) :
    Returns (traceW3C u r) fun served => ∃ t, t.Valid ∧ Propagates u r served t := by
  refine traceFromRequest_attempt_bind (fun t ht hparsed hid => ?_) fun err herr hne => ?_
  · exact returns_serveTraced none ht hparsed hid
  · -- the malformed header is replaced by a fresh trace
    refine returns_new.attempt_bind fun t ht => ?_
    refine returns_serveTraced _ ht (fun t' hok => ?_) fun hnil => absurd hnil hne
    rw [herr] at hok
    cases hok

end Middleware

/-! ### Every source, every descendant -/

/-- The contexts that `ChildSpan` makes from a context, one after the other, each with random bytes
of its own that are not all zero. -/
inductive Descends (ctx : Context) : Context → Prop where
  | refl : Descends ctx ctx
  | child {ctx₁ ctx₂ : Context} {t : Trace} {σ : Type} {src : Source Err σ} {s : σ}
      (h : Descends ctx ctx₁) (hdrawn : src.DrawsNonzero (childSpan ctx₁) s)
      (hrun : (src.run (childSpan ctx₁) s).1 = .ok (ctx₂, t)) : Descends ctx ctx₂

/-- A descendant has a valid trace with the trace id of the ancestor. -/
theorem Descends.valid {t : Trace} (ht : t.Valid) {ctx : Context} (h : Descends (some t) ctx) :
    ∃ t', ctx = some t' ∧ t'.Valid ∧ t'.traceID = t.traceID := by
  induction h with
  | refl => exact ⟨t, rfl, ht, rfl⟩
  | child _ hdrawn hrun ih =>
    obtain ⟨t₁, rfl, ht₁, hid⟩ := ih
    obtain ⟨⟨ctx₂, child⟩, hok, hctx, hchild, hid'⟩ := (returns_childSpan ht₁).run hdrawn
    obtain ⟨rfl, rfl⟩ := Prod.mk.inj (Except.ok.inj (hrun.symm.trans hok))
    exact ⟨_, hctx, hchild, hid'.trans hid⟩

/-- **The trace middleware always propagates a valid trace**, for every request and every random
source whose reads succeed with bytes that are not all zero: the echoed header parses to the trace
in the context, which is the caller's as far as the caller sent one, and every span that descends
from the context keeps the trace id and can be parsed too. -/
theorem traceW3C_propagates (u : Unicode) {σ : Type} (src : Source Err σ) (s : σ)
    (r : TraceRequest) (hdrawn : src.DrawsNonzero (traceW3C u r) s) :
    (∃ served t, (src.run (traceW3C u r) s).1 = .ok served ∧ Propagates u r served t ∧
      ∀ ctx, Descends served.context ctx → ∀ {σ' : Type} (src' : Source Err σ') (s' : σ'),
        src'.DrawsNonzero (childSpan ctx) s' →
          ∃ ctx' child, (src'.run (childSpan ctx) s').1 = .ok (ctx', child) ∧
            child.traceID = t.traceID ∧ parse u child.string = .ok child) ∧
      ∀ id, IDText Hex.IsLower 32 (normaliseRequestID u id) := by
  refine ⟨?_, idText_normaliseRequestID u⟩
  obtain ⟨served, hrun, t, ht, hprop⟩ := (returns_traceW3C u r).run hdrawn
  refine ⟨served, t, hrun, hprop, ?_⟩
  intro ctx hdesc σ' src' s' hdrawn'
  -- every descendant has a trace of its own, so the child span has a parent to take the id from
  rw [hprop.context] at hdesc
  obtain ⟨t₁, rfl, ht₁, hid⟩ := hdesc.valid ht
  obtain ⟨⟨ctx', child⟩, hok, -, hchild, hid'⟩ := (returns_childSpan ht₁).run hdrawn'
  exact ⟨ctx', child, hok, hid'.trans hid, (parse_string_iff u).mpr hchild⟩

/-- A source that never runs out, and gives ones. -/
def onesSource : Source Err Unit where
  read _ n := (.ok (List.replicate n 1), ())
  length_eq h := by
    rw [← Except.ok.inj h, List.length_replicate]

/-- A request with an id that is not hexadecimal. -/
def namedRequest : TraceRequest := ⟨[], ascii "checkout-7", none⟩

/-- A request that sends an id only gets a trace, and its child spans get traces. -/
theorem namedRequest_propagates : ∃ served t,
    (onesSource.run (traceW3C default namedRequest) ()).1 = .ok served ∧
      Propagates default namedRequest served t ∧ t.traceID = normaliseRequestID default
        (ascii "checkout-7") := by
  have hdrawn : onesSource.DrawsNonzero (traceW3C default namedRequest) () := by
    intro r hr
    obtain rfl : r = .ok (List.replicate 8 1) := List.mem_singleton.mp hr
    exact ⟨_, rfl, 1, by decide, by decide⟩
  obtain ⟨⟨served, t, hrun, hprop, -⟩, -⟩ :=
    traceW3C_propagates default onesSource () namedRequest hdrawn
  exact ⟨served, t, hrun, hprop, hprop.requestID rfl (by decide)⟩

end Governance
