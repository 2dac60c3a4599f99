import CallRouting.Proofs.Fitting
import Mathlib.Logic.Relation

/-!
# What a question leaves behind does not matter

A question finds the exchange as the questions before it left it. As long as the limits of patterns
stay, that cannot be seen in the answer.

* **Invariant** (`Faithful`): every kept pattern is what reading its source under the limits in
  force gives.
* **One step** (`Step.faithful`): asking for a pattern, writing to the log and changing settings
  that leave the reading of patterns alone keep the invariant; hence a whole session does
  (`Session.faithful_of_parse`), and one that keeps the limits (`Session.faithful`).
* **Questions** (`Neutral`): a question that changes nothing but the store and the log, and whose
  answer depends on the settings only. Its answer is the one that an exchange gives that was just
  started (`decision`), and questions can be put together (`decision_bind`).
-/

namespace CallRouting

/-! ## The invariant -/

/-- Whether every kept pattern is what reading its source gives. -/
def PatternStore.Faithful (limits : PatternLimits) (store : PatternStore) : Prop :=
  ∀ p ∈ store.entries, Pattern.parse limits p.source = .ok p

namespace PatternStore

variable {limits : PatternLimits} {source : String} {store : PatternStore}

/-- A store without patterns is faithful. -/
theorem faithful_blank (limits : PatternLimits) (capacity : Nat) :
    (blank capacity).Faithful limits := by
  intro p h
  cases h

/-- A faithful store gives out what reading the source gives. -/
theorem Faithful.fst_ask (h : store.Faithful limits) (source : String) :
    (store.ask limits source).1 = Pattern.parse limits source := by
  unfold ask
  cases hfind : store.find? source with
  | some p =>
    have hmem : p ∈ store.entries := List.mem_of_find?_eq_some hfind
    have hsource : p.source = source := by simpa using List.find?_some hfind
    rw [← hsource]
    exact (h p hmem).symm
  | none => cases Pattern.parse limits source <;> rfl

/-- A faithful store stays faithful when it is asked. -/
theorem Faithful.ask (h : store.Faithful limits) (source : String) :
    (store.ask limits source).2.Faithful limits := by
  unfold PatternStore.ask
  cases hfind : store.find? source with
  | some p =>
    intro q hq
    rcases List.mem_cons.mp hq with rfl | hq
    · exact h q (List.mem_of_find?_eq_some hfind)
    · exact h q (List.mem_of_mem_filter hq)
  | none =>
    cases hparse : Pattern.parse limits source with
    | error e => exact h
    | ok p =>
      intro q hq
      rcases List.mem_cons.mp (List.mem_of_mem_take hq) with rfl | hq
      · rw [Pattern.source_of_parse hparse]
        exact hparse
      · exact h q hq

end PatternStore

namespace Exchange

/-- Whether every kept pattern is what reading its source under the limits in force gives. -/
def Faithful (x : Exchange) : Prop := x.patterns.Faithful x.settings.limits

/-- An exchange that was just started is faithful. -/
theorem faithful_start (settings : Settings) : (start settings).Faithful :=
  PatternStore.faithful_blank _ _

/-! ## Sessions -/

/-- A step of a session in which some part of the settings is kept: a pattern is asked for, the log
is written to or emptied, or settings are changed. -/
inductive Step {κ : Type} (kept : Settings → κ) : Exchange → Exchange → Prop
  | ask (x : Exchange) (source : String) : Step kept x (Exchange.ask source x).2
  | log (x : Exchange) (log : List LogRecord) : Step kept x { x with log }
  | configure (x : Exchange) (settings : Settings) (h : kept settings = kept x.settings) :
      Step kept x { x with settings }

/-- A session: any steps in any order. -/
abbrev Session {κ : Type} (kept : Settings → κ) : Exchange → Exchange → Prop :=
  Relation.ReflTransGen (Step kept)

variable {κ : Type} {kept : Settings → κ} {x y : Exchange}

/-- A step keeps what is to be kept. -/
theorem Step.kept_eq (h : Step kept x y) : kept y.settings = kept x.settings := by
  cases h with
  | ask | log => rfl
  | configure settings h => exact h

/-- **A session keeps what is to be kept.** -/
theorem Session.kept_eq (h : Session kept x y) : kept y.settings = kept x.settings := by
  induction h with
  | refl => rfl
  | tail _ hstep ih => rw [hstep.kept_eq, ih]

/-- A step after which patterns are read as before keeps the patterns faithful. -/
theorem Step.faithful (h : Step kept x y)
    (hkept : ∀ s t, kept s = kept t →
      ∀ source, Pattern.parse s.limits source = Pattern.parse t.limits source)
    (hx : x.Faithful) : y.Faithful := by
  cases h with
  | ask source => exact PatternStore.Faithful.ask hx source
  | log log => exact hx
  | configure settings h =>
    intro p hp
    exact (hkept _ _ h p.source).trans (hx p hp)

/-- **A session in which patterns are always read alike keeps the patterns faithful.** -/
theorem Session.faithful_of_parse (h : Session kept x y)
    (hkept : ∀ s t, kept s = kept t →
      ∀ source, Pattern.parse s.limits source = Pattern.parse t.limits source)
    (hx : x.Faithful) : y.Faithful := by
  induction h with
  | refl => exact hx
  | tail _ hstep ih => exact hstep.faithful hkept ih

/-- A session with the limits kept keeps the patterns faithful. -/
theorem Session.faithful (h : Session kept x y)
    (hkept : ∀ s t, kept s = kept t → s.limits = t.limits) (hx : x.Faithful) : y.Faithful :=
  h.faithful_of_parse (fun s t heq source => by rw [hkept s t heq]) hx

/-! ## Questions -/

/-- An exchange that was just started, with room for no pattern. -/
def fresh (settings : Settings) : Exchange := ⟨settings, .blank 0, []⟩

/-- A fresh exchange is faithful. -/
theorem faithful_fresh (settings : Settings) : (fresh settings).Faithful :=
  PatternStore.faithful_blank _ _

variable {ε ε' α β : Type}

/-- What a fresh exchange answers. -/
def decision (settings : Settings) (w : Work ε α) : Except ε α := (w (fresh settings)).1

/-- A question that changes nothing but the store and the log, and whose answer depends on the
settings only. -/
class Neutral (w : Work ε α) : Prop where
  session : ∀ x, Session id x (w x).2
  answer : ∀ x, x.Faithful → (w x).1 = decision x.settings w

namespace Neutral

variable {w : Work ε α} {f : α → Work ε β}

/-- A question keeps the settings. -/
theorem settings_eq (hw : Neutral w) (x : Exchange) : (w x).2.settings = x.settings :=
  (hw.session x).kept_eq

/-- A question keeps the patterns faithful. -/
theorem faithful (hw : Neutral w) (hx : x.Faithful) : (w x).2.Faithful :=
  (hw.session x).faithful (fun _ _ h => congrArg Settings.limits h) hx

/-- What does nothing is a question. -/
instance (a : α) : Neutral (pure a : Work ε α) := ⟨fun _ => .refl, fun _ _ => rfl⟩

/-- Giving up is a question. -/
instance (e : ε) : Neutral (throw e : Work ε α) := ⟨fun _ => .refl, fun _ _ => rfl⟩

/-- What is known already is a question. -/
instance (r : Except ε α) : Neutral (liftM r : Work ε α) := ⟨fun _ => .refl, fun _ _ => rfl⟩

/-- Asking for the settings is a question. -/
instance : Neutral (settingsNow : Work ε Settings) := ⟨fun _ => .refl, fun _ _ => rfl⟩

/-- Writing to the log is a question. -/
instance (r : LogRecord) : Neutral (note r : Work ε Unit) :=
  ⟨fun x => .single (.log x (r :: x.log)), fun _ _ => rfl⟩

/-- Asking for a pattern is a question. -/
instance (source : String) : Neutral (ask source) := by
  refine ⟨fun x => .single (.ask x source), fun x hx => ?_⟩
  have hfresh := (faithful_fresh x.settings).fst_ask source
  exact (hx.fst_ask source).trans hfresh.symm

/-- A choice between two questions is a question. -/
instance (c : Prop) [Decidable c] {w w' : Work ε α} [Neutral w] [Neutral w'] :
    Neutral (if c then w else w') := by
  split <;> infer_instance

/-- A question whose failures are reported in other words is a question. -/
instance {w : Work ε α} [hw : Neutral w] (g : ε → ε') : Neutral (ExceptT.adapt g w : Work ε' α) :=
  ⟨fun x => hw.session x, fun x hx => congrArg (Except.mapError g) (hw.answer x hx)⟩

end Neutral

/-- What two questions put together do to an exchange. -/
theorem bind_apply (w : Work ε α) (f : α → Work ε β) (x : Exchange) :
    (w >>= f) x =
      match w x with
      | (.ok a, y) => f a y
      | (.error e, y) => (.error e, y) := by
  change (match w x with
    | (r, y) => (ExceptT.bindCont f r : StateM Exchange (Except ε β)) y) = _
  rcases w x with ⟨r, y⟩
  cases r <;> rfl

/-- Two questions put together succeed if both do, the second one on the exchange that the first
one leaves behind. -/
theorem bind_apply_eq_ok {w : Work ε α} {f : α → Work ε β} {x : Exchange} {b : β}
    (h : ((w >>= f) x).1 = .ok b) : ∃ a, (w x).1 = .ok a ∧ (f a (w x).2).1 = .ok b := by
  rw [bind_apply] at h
  generalize w x = result at h ⊢
  obtain ⟨r, y⟩ := result
  cases r with
  | error e => cases h
  | ok a => exact ⟨a, rfl, h⟩

/-- **The answer to two questions put together.** -/
theorem decision_bind (settings : Settings) (w : Work ε α) (f : α → Work ε β) [hw : Neutral w]
    [hf : ∀ a, Neutral (f a)] :
    decision settings (w >>= f) = decision settings w >>= fun a => decision settings (f a) := by
  have hfaithful := hw.faithful (faithful_fresh settings)
  have hsettings := hw.settings_eq (fresh settings)
  unfold decision
  rw [bind_apply]
  generalize w (fresh settings) = result at hfaithful hsettings ⊢
  obtain ⟨r, y⟩ := result
  cases r with
  | error e => rfl
  | ok a =>
    change (f a y).1 = decision settings (f a)
    rw [(hf a).answer y hfaithful]
    exact congrArg (decision · (f a)) hsettings

/-- Two questions put together are a question. -/
theorem Neutral.bind {w : Work ε α} {f : α → Work ε β} (hw : Neutral w)
    (hf : ∀ a, Neutral (f a)) : Neutral (w >>= f) := by
  constructor
  · intro x
    have hsession := hw.session x
    rw [bind_apply]
    generalize w x = result at hsession ⊢
    obtain ⟨r, y⟩ := result
    cases r with
    | error e => exact hsession
    | ok a => exact hsession.trans ((hf a).session y)
  · intro x hx
    have hanswer := hw.answer x hx
    have hfaithful := hw.faithful hx
    have hsettings := hw.settings_eq x
    rw [decision_bind, ← hanswer, bind_apply]
    generalize w x = result at hfaithful hsettings ⊢
    obtain ⟨r, y⟩ := result
    cases r with
    | error e => rfl
    | ok a =>
      change (f a y).1 = decision x.settings (f a)
      rw [(hf a).answer y hfaithful]
      exact congrArg (decision · (f a)) hsettings

instance {w : Work ε α} {f : α → Work ε β} [hw : Neutral w] [hf : ∀ a, Neutral (f a)] :
    Neutral (w >>= f) := hw.bind hf

/-- The answer to a question whose failures are reported in other words. -/
theorem decision_adapt (settings : Settings) (w : Work ε α) (g : ε → ε') :
    decision settings (ExceptT.adapt g w : Work ε' α) = (decision settings w).mapError g := rfl

/-- The answer of a choice between two questions. -/
theorem decision_ite (settings : Settings) (c : Prop) [Decidable c] (w w' : Work ε α) :
    decision settings (if c then w else w') =
      if c then decision settings w else decision settings w' :=
  apply_ite (decision settings) c w w'

/-- What is done with an answer. -/
@[simp] theorem ok_bind (a : α) (g : α → Except ε β) : (.ok a >>= g) = g a := rfl

/-- Two steps succeed when both do. -/
theorem bind_eq_ok_iff {r : Except ε α} {f : α → Except ε β} {b : β} :
    r >>= f = .ok b ↔ ∃ a, r = .ok a ∧ f a = .ok b := by
  cases r <;> simp [bind, Except.bind]

/-- Reporting failures in other words leaves success as it is. -/
theorem mapError_eq_ok_iff {r : Except ε α} {g : ε → ε'} {a : α} :
    r.mapError g = .ok a ↔ r = .ok a := by
  cases r <;> simp [Except.mapError]

/-- Two steps fail when the first one does, or when it succeeds and the second one fails. -/
theorem bind_eq_error_iff {r : Except ε α} {f : α → Except ε β} {e : ε} :
    r >>= f = .error e ↔ r = .error e ∨ ∃ a, r = .ok a ∧ f a = .error e := by
  cases r <;> simp [bind, Except.bind]

@[simp] theorem decision_pure (settings : Settings) (a : α) :
    decision settings (pure a : Work ε α) = .ok a := rfl

@[simp] theorem decision_lift (settings : Settings) (r : Except ε α) :
    decision settings (liftM r : Work ε α) = r := rfl

@[simp] theorem decision_settingsNow (settings : Settings) :
    decision settings (settingsNow : Work ε Settings) = .ok settings := rfl

@[simp] theorem decision_note (settings : Settings) (r : LogRecord) :
    decision settings (note r : Work ε Unit) = .ok () := rfl

/-- Asking for a pattern gives what reading its source gives. -/
@[simp] theorem decision_ask (settings : Settings) (source : String) :
    decision settings (ask source) = Pattern.parse settings.limits source :=
  (faithful_fresh settings).fst_ask source

end Exchange

end CallRouting
