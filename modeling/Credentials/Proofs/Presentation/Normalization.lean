import Credentials.Presentation.Engine
import Credentials.Proofs.Step

/-!
# Answers in normal form

Verifiers are steps about which nothing is known: each may give any verdict, fail, break down or be
cancelled. Whatever they do, an engine answers in normal form. It says valid only for a request whose
type names a registered kind, on the plain word of the verifier of that kind, and how a failure is
described never shows in the answer.
-/

namespace Credentials

namespace PresentationKind

theorem ofName?_eq_some_iff {s : String} {k : PresentationKind} :
    ofName? s = some k ↔ s = k.name := by
  constructor
  · intro h
    have hname := List.find?_some h
    exact (of_decide_eq_true hname).symm
  · rintro rfl
    exact ofName?_name k

theorem name_ne_empty (k : PresentationKind) : k.name ≠ "" := by
  cases k <;> decide

end PresentationKind

namespace VerificationResult

/-- An answer whose parts say the same: it is valid exactly with the one code for that, it has a
code, and it names an issuer only when it is valid. -/
structure Normal (r : VerificationResult) : Prop where
  valid_iff : r.valid = true ↔ r.reasons = [.valid]
  reasons : r.reasons ≠ []
  issuer : r.issuer.isSome = true → r.valid = true

theorem valid_ofVerdict_iff (v : Verdict) (now : Instant) :
    (ofVerdict v now).valid = true ↔ v.reasons = [.valid] :=
  beq_iff_eq

theorem reasons_ofVerdict_eq_valid_iff (v : Verdict) (now : Instant) :
    (ofVerdict v now).reasons = [.valid] ↔ v.reasons = [.valid] := by
  unfold ofVerdict
  cases v.reasons with
  | nil => simp
  | cons r rs => rfl

theorem normal_ofVerdict (v : Verdict) (now : Instant) : (ofVerdict v now).Normal where
  valid_iff := (valid_ofVerdict_iff v now).trans (reasons_ofVerdict_eq_valid_iff v now).symm
  reasons := by
    unfold ofVerdict
    cases v.reasons <;> simp
  issuer := by
    intro h
    cases hvalid : v.isValid with
    | true => exact hvalid
    | false =>
      rw [ofVerdict, hvalid] at h
      cases h

theorem normal_failure {r : Reason} (hr : r ≠ .valid) (evidence : Option String) (now : Instant) :
    (failure r evidence now).Normal where
  valid_iff := by
    constructor
    · intro h
      cases h
    · intro h
      exact absurd (List.cons.inj h).1 hr
  reasons := List.cons_ne_nil r []
  issuer := by
    intro h
    cases h

end VerificationResult

/-! Descriptions of failures. -/

/-- Two ends of a verifier that differ at most in the text that describes a failure. -/
inductive SameButDetail : Except VerifierError Verdict → Except VerifierError Verdict → Prop where
  | same (r : Except VerifierError Verdict) : SameButDetail r r
  | dependency (s t : String) :
      SameButDetail (.error (.dependency s)) (.error (.dependency t))

/-- Verifiers of one kind that differ at most in how they describe failures. -/
def Verifier.AgreesWith {W : Type} (v v' : Verifier W) : Prop :=
  v.kind = v'.kind ∧ ∀ presentation w,
    SameButDetail (v.verify presentation w).1 (v'.verify presentation w).1 ∧
      (v.verify presentation w).2 = (v'.verify presentation w).2

namespace Engine

variable {W : Type} {e e' : Engine W} {q : VerificationRequest} {w u : W} {kind : PresentationKind}
  {v v' : Verifier W}

/-- Engines whose verifiers differ at most in how they describe failures. -/
def AgreesWith (e e' : Engine W) : Prop :=
  e.toSurroundings = e'.toSurroundings ∧
    ∀ k, Option.Rel Verifier.AgreesWith (e.verifier? k) (e'.verifier? k)

/-- A type that is missing or empty. -/
def LacksType (q : VerificationRequest) : Prop := q.kind = none ∨ q.kind = some ""

/-- A type that is no name of a registered kind. -/
def Unsupported (e : Engine W) (q : VerificationRequest) : Prop :=
  ∃ name, q.kind = some name ∧ name ≠ "" ∧ ∀ k : PresentationKind, k.name = name →
    e.verifier? k = none

/-- A request for a registered kind, and the verifier of that kind. -/
def Supports (e : Engine W) (q : VerificationRequest) (k : PresentationKind) (v : Verifier W) :
    Prop :=
  q.kind = some k.name ∧ e.verifier? k = some v

theorem kind_of_verifier? (h : e.verifier? kind = some v) : v.kind = kind := by
  simpa using List.find?_some h

theorem request_cases (e : Engine W) (q : VerificationRequest) :
    LacksType q ∨ e.Unsupported q ∨ ∃ k v, e.Supports q k v := by
  cases hq : q.kind with
  | none => exact .inl (.inl hq)
  | some name =>
    by_cases hempty : name = ""
    · exact .inl (.inr (hempty ▸ hq))
    right
    by_cases h : ∃ k v, k.name = name ∧ e.verifier? k = some v
    · obtain ⟨k, v, rfl, hv⟩ := h
      exact .inr ⟨k, v, hq, hv⟩
    · refine .inl ⟨name, hq, hempty, fun k hk => ?_⟩
      rw [Option.eq_none_iff_forall_ne_some]
      intro v hv
      exact h ⟨k, v, hk, hv⟩

/-! One equation for each way that a request can take. -/

theorem verify_of_cancelled (hsignal : e.cancelled w = true) : e.verify q w = (.error .mk, w) := by
  refine Step.bind_of_error ?_
  exact if_pos hsignal

section Signal

variable (hsignal : e.cancelled w = false)

include hsignal

/-- Without a signal an engine goes on with the time of the request. -/
theorem bind_check_time (f : Instant → Step W Cancelled VerificationResult) :
    (e.check .mk >>= fun _ => e.time >>= f) w = f (e.now w) w := by
  have hcheck : e.check Cancelled.mk w = (.ok (), w) :=
    Step.check_of_not_cancelled hsignal Cancelled.mk
  have htime : (e.time : Step W Cancelled Instant) w = (.ok (e.now w), w) := rfl
  rw [Step.bind_of_ok hcheck, Step.bind_of_ok htime]

theorem verify_of_lacksType (h : LacksType q) :
    e.verify q w = (.ok (.failure .malformedPresentation none (e.now w)), w) := by
  unfold verify
  rw [bind_check_time hsignal]
  rcases h with h | h
  · rw [h]
    rfl
  · rw [h]
    rfl

/-- A name is looked up among the kinds, and the kind among the verifiers. -/
theorem verify_of_name {name : String} (hq : q.kind = some name) (hname : name ≠ "") :
    e.verify q w = (((PresentationKind.ofName? name).bind e.verifier?).elim
      (pure (.failure .unsupportedPresentation none (e.now w)))
      fun v => e.dispatch v q.presentation (e.now w)) w := by
  unfold verify
  rw [bind_check_time hsignal, hq]
  refine congrFun ?_ w
  split
  · next h => cases h
  · next h => exact absurd (Option.some.inj h) hname
  · next name' _ h =>
    obtain rfl := Option.some.inj h
    cases (PresentationKind.ofName? name).bind e.verifier? <;> rfl

theorem verify_of_unsupported (h : e.Unsupported q) :
    e.verify q w = (.ok (.failure .unsupportedPresentation none (e.now w)), w) := by
  obtain ⟨name, hq, hname, hnone⟩ := h
  have hfound : (PresentationKind.ofName? name).bind e.verifier? = none := by
    rw [Option.bind_eq_none_iff]
    intro k hk
    exact hnone k (PresentationKind.ofName?_eq_some_iff.mp hk).symm
  rw [verify_of_name hsignal hq hname, hfound]
  rfl

theorem verify_of_supports (h : e.Supports q kind v) :
    e.verify q w = e.dispatch v q.presentation (e.now w) w := by
  obtain ⟨hq, hv⟩ := h
  have hfound : (PresentationKind.ofName? kind.name).bind e.verifier? = some v := by
    rw [PresentationKind.ofName?_name, Option.bind_some, hv]
  rw [verify_of_name hsignal hq kind.name_ne_empty, hfound]
  rfl

end Signal
/-! The verifier of a kind. -/

section Dispatch

variable {presentation : Json} {now : Instant} {result : Except VerifierError Verdict}

theorem dispatch_of_signal (hverify : v.verify presentation w = (result, u))
    (hsignal : e.cancelled u = true) : e.dispatch v presentation now w = (.error .mk, u) := by
  unfold dispatch
  rw [hverify]
  exact if_pos hsignal

theorem dispatch_of_no_signal (hverify : v.verify presentation w = (result, u))
    (hsignal : e.cancelled u = false) :
    e.dispatch v presentation now w = (answer v.kind now result, u) := by
  unfold dispatch
  rw [hverify]
  exact if_neg (Bool.eq_false_iff.mp hsignal)

theorem normal_of_answer {r : VerificationResult} (h : answer kind now result = .ok r) :
    r.Normal := by
  cases result with
  | ok verdict =>
    cases h
    exact VerificationResult.normal_ofVerdict verdict now
  | error cause =>
    cases cause with
    | cancelled => cases h
    | dependency detail =>
      cases h
      exact VerificationResult.normal_failure (by decide) _ _
    | crashed =>
      cases h
      exact VerificationResult.normal_failure (by decide) _ _

/-- Only a verdict with the one code for it makes an answer valid. -/
theorem valid_of_answer {r : VerificationResult} (h : answer kind now result = .ok r)
    (hvalid : r.valid = true) : ∃ verdict, result = .ok verdict ∧ verdict.reasons = [.valid] := by
  cases result with
  | ok verdict =>
    cases h
    exact ⟨verdict, rfl, (VerificationResult.valid_ofVerdict_iff verdict now).mp hvalid⟩
  | error cause =>
    cases cause with
    | cancelled => cases h
    | dependency detail =>
      cases h
      cases hvalid
    | crashed =>
      cases h
      cases hvalid

theorem answer_of_failure {cause : VerifierError} (h : cause ≠ .cancelled) :
    answer kind now (.error cause) = .ok (.failure .internalError (some kind.name) now) := by
  cases cause with
  | cancelled => exact absurd rfl h
  | dependency detail => rfl
  | crashed => rfl

theorem answer_eq_of_sameButDetail {result' : Except VerifierError Verdict}
    (h : SameButDetail result result') : answer kind now result = answer kind now result' := by
  cases h with
  | same => rfl
  | dependency s t => rfl

theorem dispatch_eq_of_agreesWith (he : e.toSurroundings = e'.toSurroundings)
    (h : v.AgreesWith v') : e.dispatch v presentation now w = e'.dispatch v' presentation now w := by
  obtain ⟨hkind, hverify⟩ := h
  obtain ⟨hresult, hworld⟩ := hverify presentation w
  have hv : v.verify presentation w = _ := rfl
  have hv' : v'.verify presentation w = ((v'.verify presentation w).1, (v.verify presentation w).2) :=
    Prod.ext rfl hworld.symm
  cases hsignal : e.cancelled (v.verify presentation w).2 with
  | true =>
    rw [dispatch_of_signal hv hsignal, dispatch_of_signal hv' (he ▸ hsignal)]
  | false =>
    rw [dispatch_of_no_signal hv hsignal, dispatch_of_no_signal hv' (he ▸ hsignal), hkind,
      answer_eq_of_sameButDetail hresult]

end Dispatch

/-! What every request comes to. -/

/-- The ways to an answer. -/
theorem verify_eq_ok {r : VerificationResult} (h : e.verify q w = (.ok r, u)) :
    e.cancelled w = false ∧
      (r = .failure .malformedPresentation none (e.now w) ∨
        r = .failure .unsupportedPresentation none (e.now w) ∨
        ∃ k v result, e.Supports q k v ∧ v.verify q.presentation w = (result, u) ∧
          e.cancelled u = false ∧ answer k (e.now w) result = .ok r) := by
  cases hsignal : e.cancelled w with
  | true =>
    rw [verify_of_cancelled hsignal] at h
    cases h
  | false =>
    refine ⟨rfl, ?_⟩
    rcases request_cases e q with hlacks | hunsupported | ⟨k, v, hsupports⟩
    · rw [verify_of_lacksType hsignal hlacks] at h
      cases h
      exact .inl rfl
    · rw [verify_of_unsupported hsignal hunsupported] at h
      cases h
      exact .inr (.inl rfl)
    · right; right
      rw [verify_of_supports hsignal hsupports] at h
      cases hverify : v.verify q.presentation w with
      | mk result u' =>
        cases hsignal' : e.cancelled u' with
        | true =>
          rw [dispatch_of_signal hverify hsignal'] at h
          cases h
        | false =>
          rw [dispatch_of_no_signal hverify hsignal', kind_of_verifier? hsupports.2] at h
          obtain ⟨hanswer, rfl⟩ := Prod.mk.inj h
          exact ⟨k, v, result, hsupports, hverify, hsignal', hanswer⟩

theorem AgreesWith.supports (h : e.AgreesWith e') (hsupports : e.Supports q kind v) :
    ∃ v', e'.Supports q kind v' ∧ v.AgreesWith v' := by
  obtain ⟨hq, hv⟩ := hsupports
  have hrel := h.2 kind
  rw [hv] at hrel
  cases hv' : e'.verifier? kind with
  | none =>
    rw [hv'] at hrel
    cases hrel
  | some v' =>
    rw [hv'] at hrel
    cases hrel with
    | some hagrees => exact ⟨v', ⟨hq, hv'⟩, hagrees⟩

theorem AgreesWith.unsupported (h : e.AgreesWith e') (hunsupported : e.Unsupported q) :
    e'.Unsupported q := by
  obtain ⟨name, hq, hname, hnone⟩ := hunsupported
  refine ⟨name, hq, hname, fun k hk => ?_⟩
  have hrel := h.2 k
  rw [hnone k hk] at hrel
  cases hv' : e'.verifier? k with
  | none => rfl
  | some v' =>
    rw [hv'] at hrel
    cases hrel

/-- How failures are described does not show in the answer. -/
theorem verify_eq_of_agreesWith (h : e.AgreesWith e') : e.verify q w = e'.verify q w := by
  have hcancelled : e'.cancelled w = e.cancelled w := by rw [h.1]
  have hnow : e'.now w = e.now w := by rw [h.1]
  cases hsignal : e.cancelled w with
  | true =>
    rw [verify_of_cancelled hsignal, verify_of_cancelled (hcancelled.trans hsignal)]
  | false =>
    have hsignal' := hcancelled.trans hsignal
    rcases request_cases e q with hlacks | hunsupported | ⟨k, v, hsupports⟩
    · rw [verify_of_lacksType hsignal hlacks, verify_of_lacksType hsignal' hlacks, hnow]
    · rw [verify_of_unsupported hsignal hunsupported,
        verify_of_unsupported hsignal' (h.unsupported hunsupported), hnow]
    · obtain ⟨v', hsupports', hagrees⟩ := h.supports hsupports
      rw [verify_of_supports hsignal hsupports, verify_of_supports hsignal' hsupports', hnow]
      exact dispatch_eq_of_agreesWith h.1 hagrees

/-- What an engine makes of a request, whatever its verifiers do. -/
structure Normalizes (e : Engine W) (q : VerificationRequest) (w : W) : Prop where
  normal : ∀ r u, e.verify q w = (.ok r, u) → r.Normal
  valid_iff : ∀ u, (∃ r, e.verify q w = (.ok r, u) ∧ r.valid = true) ↔
    e.cancelled w = false ∧ e.cancelled u = false ∧ ∃ k v verdict, e.Supports q k v ∧
      v.verify q.presentation w = (.ok verdict, u) ∧ verdict.reasons = [.valid]
  lacksType : e.cancelled w = false → LacksType q →
    e.verify q w = (.ok ⟨false, [.malformedPresentation], none, none, e.now w⟩, w)
  unsupported : e.cancelled w = false → e.Unsupported q →
    e.verify q w = (.ok ⟨false, [.unsupportedPresentation], none, none, e.now w⟩, w)
  failed : e.cancelled w = false → ∀ k v cause u, e.Supports q k v →
    v.verify q.presentation w = (.error cause, u) → cause ≠ .cancelled → e.cancelled u = false →
      e.verify q w = (.ok ⟨false, [.internalError], some k.name, none, e.now w⟩, u)
  judged : e.cancelled w = false → ∀ k v verdict u, e.Supports q k v →
    v.verify q.presentation w = (.ok verdict, u) → e.cancelled u = false →
      e.verify q w = (.ok (.ofVerdict verdict (e.now w)), u)
  no_detail : ∀ e', e.AgreesWith e' → e'.verify q w = e.verify q w

/-- The verifiers of an engine do not keep it from answering in normal form. -/
theorem verify_normalizes (e : Engine W) (q : VerificationRequest) (w : W) :
    e.Normalizes q w where
  normal := by
    intro r u h
    obtain ⟨_, rfl | rfl | ⟨k, v, result, _, _, _, hanswer⟩⟩ := verify_eq_ok h
    · exact VerificationResult.normal_failure (by decide) _ _
    · exact VerificationResult.normal_failure (by decide) _ _
    · exact normal_of_answer hanswer
  valid_iff := by
    intro u
    constructor
    · rintro ⟨r, h, hvalid⟩
      obtain ⟨hsignal, rfl | rfl | ⟨k, v, result, hsupports, hverify, hsignal', hanswer⟩⟩ :=
        verify_eq_ok h
      · cases hvalid
      · cases hvalid
      · obtain ⟨verdict, rfl, hreasons⟩ := valid_of_answer hanswer hvalid
        exact ⟨hsignal, hsignal', k, v, verdict, hsupports, hverify, hreasons⟩
    · rintro ⟨hsignal, hsignal', k, v, verdict, hsupports, hverify, hreasons⟩
      refine ⟨.ofVerdict verdict (e.now w), ?_, ?_⟩
      · rw [verify_of_supports hsignal hsupports, dispatch_of_no_signal hverify hsignal']
        rfl
      · exact (VerificationResult.valid_ofVerdict_iff verdict _).mpr hreasons
  lacksType hsignal h := verify_of_lacksType hsignal h
  unsupported hsignal h := verify_of_unsupported hsignal h
  failed := by
    intro hsignal k v cause u hsupports hverify hcause hsignal'
    rw [verify_of_supports hsignal hsupports, dispatch_of_no_signal hverify hsignal',
      answer_of_failure hcause, kind_of_verifier? hsupports.2]
    rfl
  judged := by
    intro hsignal k v verdict u hsupports hverify hsignal'
    rw [verify_of_supports hsignal hsupports, dispatch_of_no_signal hverify hsignal']
    rfl
  no_detail := fun _ h => (verify_eq_of_agreesWith h).symm

end Engine
end Credentials
