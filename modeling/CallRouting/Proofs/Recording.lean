import CallRouting.Proofs.Answers
import CallRouting.Proofs.LogLines

/-!
# Nothing looks at the log

Work on the exchange writes to the log and never reads it. So a command that is run with its records
put aside comes to the same as it does without that, and the records are those it has written.

* **Work** (`Exchange.Tells`): work that answers the same and leaves the same behind whatever the
  log holds, but for the records that it puts in front; their lines can be read back.
* **Putting together** (`Exchange.Tells.bind` and the instances beside it): one rule for each way in
  which work is put together, and then each function of the switch, the dial plan and the commands.
* **Recording** (`Exchange.Tells.recording_apply`): work whose records are collected.
-/

namespace CallRouting

namespace Exchange

variable {α β ε ε' : Type}

/-! ## Work that does not look at the log -/

/-- Work that does not look at the log. It puts records in front of it, the lines of which can be
read back. -/
class Tells (work : StateM Exchange α) : Prop where
  appends : ∀ x, ∃ added : List LogRecord, (∀ r ∈ added, r.context.IsTextual 0) ∧
    ∀ log, work { x with log } = ((work x).1, { (work x).2 with log := added ++ log })

namespace Tells

instance (a : α) : Tells (pure a : StateM Exchange α) :=
  ⟨fun _ => ⟨[], List.forall_mem_nil _, fun _ => rfl⟩⟩

/-- One thing is done after the other. -/
theorem bind {work : StateM Exchange α} {k : α → StateM Exchange β} (hwork : Tells work)
    (hk : ∀ a, Tells (k a)) : Tells (work >>= k) := by
  refine ⟨fun x => ?_⟩
  obtain ⟨first, hfirst, heq⟩ := hwork.appends x
  obtain ⟨second, hsecond, heq'⟩ := (hk (work x).1).appends (work x).2
  -- the later records stand in front, as in the log
  refine ⟨second ++ first, List.forall_mem_append.mpr ⟨hsecond, hfirst⟩, fun log => ?_⟩
  change k (work { x with log }).1 (work { x with log }).2 = _
  rw [heq, heq', List.append_assoc]
  rfl

instance {work : StateM Exchange α} {k : α → StateM Exchange β} [hwork : Tells work]
    [hk : ∀ a, Tells (k a)] : Tells (work >>= k) := hwork.bind hk

instance (c : Prop) [Decidable c] {work work' : StateM Exchange α} [Tells work] [Tells work'] :
    Tells (if c then work else work') := by
  split <;> infer_instance

/-- The exchange itself is looked at, but not its log. -/
theorem get_bind {k : Exchange → StateM Exchange β} (hk : ∀ y, Tells (k y))
    (hlog : ∀ y log, k { y with log } = k y) : Tells (get >>= k) := by
  refine ⟨fun x => ?_⟩
  obtain ⟨added, hadded, heq⟩ := (hk x).appends x
  refine ⟨added, hadded, fun log => ?_⟩
  change k { x with log } { x with log } = _
  rw [hlog, heq]
  rfl

/-! ### Questions -/

instance (a : α) : Tells (pure a : Work ε α).run :=
  ⟨fun _ => ⟨[], List.forall_mem_nil _, fun _ => rfl⟩⟩

instance (e : ε) : Tells (throw e : Work ε α).run :=
  ⟨fun _ => ⟨[], List.forall_mem_nil _, fun _ => rfl⟩⟩

instance (r : Except ε α) : Tells (liftM r : Work ε α).run :=
  ⟨fun _ => ⟨[], List.forall_mem_nil _, fun _ => rfl⟩⟩

instance : Tells (settingsNow : Work ε Settings).run :=
  ⟨fun _ => ⟨[], List.forall_mem_nil _, fun _ => rfl⟩⟩

instance (source : String) : Tells (ask source).run :=
  ⟨fun _ => ⟨[], List.forall_mem_nil _, fun _ => rfl⟩⟩

/-- Writing a record whose line can be read back. -/
theorem note {r : LogRecord} (h : r.context.IsTextual 0) : Tells (note r : Work ε Unit).run :=
  ⟨fun _ => ⟨[r], List.forall_mem_singleton.mpr h, fun _ => rfl⟩⟩

instance {work : StateM Exchange α} [hwork : Tells work] : Tells (liftM work : Work ε α).run :=
  inferInstanceAs (Tells (work >>= fun a => pure (Except.ok a : Except ε α)))

instance {w : Work ε α} [hw : Tells w.run] (g : ε → ε') :
    Tells (ExceptT.adapt g w : Work ε' α).run :=
  inferInstanceAs (Tells (w.run >>= fun r => pure (r.mapError g)))

instance (c : Prop) [Decidable c] {w w' : Work ε α} [Tells w.run] [Tells w'.run] :
    Tells (if c then w else w').run := by
  split <;> infer_instance

/-- One question is asked after the other, if the first one is answered. -/
theorem run_bind {w : Work ε α} {f : α → Work ε β} (hw : Tells w.run)
    (hf : ∀ a, Tells (f a).run) : Tells (w >>= f).run := by
  have hcont : ∀ r, Tells (ExceptT.bindCont f r : StateM Exchange (Except ε β)) := by
    intro r
    cases r with
    | ok a => exact hf a
    | error e => exact inferInstanceAs (Tells (pure (Except.error e : Except ε β)))
  exact inferInstanceAs (Tells (w.run >>= ExceptT.bindCont f))

instance {w : Work ε α} {f : α → Work ε β} [hw : Tells w.run] [hf : ∀ a, Tells (f a).run] :
    Tells (w >>= f).run := hw.run_bind hf

/-! ### Recording -/

/-- **Work whose records are collected** comes to the same and leaves the same behind, and the lines
of its records can be read back. -/
theorem recording_apply {work : StateM Exchange α} (hwork : Tells work) (x : Exchange) :
    ∃ records : List LogRecord, (∀ r ∈ records, r.context.IsTextual 0) ∧
      recording work x = (((work x).1, records), (work x).2) := by
  obtain ⟨added, hadded, heq⟩ := hwork.appends x
  have hwhole : work x = ((work x).1, { (work x).2 with log := added ++ x.log }) := heq x.log
  refine ⟨added.reverse, fun r hr => hadded r (List.mem_reverse.mp hr), ?_⟩
  rw [recording, heq []]
  dsimp only
  rw [hwhole, records, List.append_nil]

end Tells

/-! ## Numbers and patterns -/

variable (source number template : String) (strict : Bool)

instance : Tells (pattern source).run :=
  inferInstanceAs (Tells (ExceptT.adapt CallError.pattern (ask source)).run)

instance (p : Pattern) : Tells (fitNow p number).run :=
  inferInstanceAs (Tells (settingsNow >>= fun s => liftM (fitTo p number s.limits.room)).run)

instance : Tells (fit? source number).run :=
  inferInstanceAs (Tells (pattern source >>= fun p => fitNow p number).run)

instance : Tells (fits source number).run :=
  inferInstanceAs (Tells (fit? source number >>= fun answer => pure answer.isSome).run)

instance : Tells (transform strict number source template).run := by
  rw [transform_eq]
  infer_instance

end Exchange

open Exchange (Tells)

/-! ## Routes -/

namespace Switch

variable (s : Switch) (r : Route)

instance (pattern digits : String) : Tells (accepts pattern digits).run := by
  unfold accepts
  split <;> infer_instance

instance (senderPattern : String) (sender : Option String) :
    Tells (s.authorizes senderPattern sender).run := by
  unfold authorizes
  infer_instance

/-- The records of a route are about texts. -/
theorem isTextual_records (number : String) (c : CallClass) (authorized : Bool) :
    (skipped r number).context.IsTextual 0 ∧ (templateIgnored r).context.IsTextual 0 ∧
      (taken r number c authorized).context.IsTextual 0 := by
  simp [LogContext.IsTextual, LogContext.entries, skipped, templateIgnored, taken, Json.isTextual]

instance (normal : String) : Tells (s.address r normal).run := by
  have hignored : Tells (Exchange.note (templateIgnored r) : Work CallError Unit).run :=
    .note (isTextual_records r "" .unknown false).2.1
  unfold address
  split <;> infer_instance

instance (destination : String) (sender : Option String) :
    Tells (s.route r destination sender).run := by
  have hskipped : ∀ number, Tells (Exchange.note (skipped r number) : Work CallError Unit).run :=
    fun number => .note (isTextual_records r number .unknown false).1
  have htaken : ∀ number c authorized,
      Tells (Exchange.note (taken r number c authorized) : Work CallError Unit).run :=
    fun number c authorized => .note (isTextual_records r number c authorized).2.2
  unfold route
  infer_instance

end Switch

/-! ## Dial plans -/

namespace Rule

variable (place : List PathStep)

instance (source : String) : Tells (checkPattern place source) := by
  unfold checkPattern
  split
  · infer_instance
  · refine Tells.bind inferInstance fun answer => ?_
    cases answer <;> infer_instance

instance (record : Json) (name : String) (standard : Checked String) :
    Tells (patternAt record place name standard) := by
  unfold patternAt
  split <;> infer_instance

instance (r : Rule) : Tells r.checkTemplate.run := by
  unfold checkTemplate
  split <;> infer_instance

instance (checked : Checked Rule) : Tells (accept place checked).run := by
  unfold accept
  cases checked with
  | error findings => infer_instance
  | ok r =>
    refine Tells.run_bind inferInstance fun c => ?_
    cases c <;> infer_instance

instance (record : Json) : Tells (Rule.ofJson place record).run := by
  unfold Rule.ofJson
  split <;> infer_instance

end Rule

namespace DialPlan

variable (files : Files) (s : Switch) (destination : String) (sender : Option String)

instance (index : Nat) (items : List Json) : Tells (rulesFrom index items).run := by
  induction items generalizing index with
  | nil =>
    unfold rulesFrom
    infer_instance
  | cons item rest ih =>
    unfold rulesFrom
    infer_instance

instance (document : Json) : Tells (rulesOf document).run := by
  unfold rulesOf
  split
  · split <;> infer_instance
  · infer_instance

instance (document : Json) : Tells (ofDocument s document).run := by
  unfold ofDocument
  infer_instance

/-- The records of a dial plan are about nothing but their messages. -/
theorem isTextual_records (path : String) (count : Nat) :
    (loaded path count).context.IsTextual 0 ∧ (unrouted destination).context.IsTextual 0 := by
  simp [LogContext.IsTextual, LogContext.entries, loaded, unrouted, Json.isTextual]

instance (path : String) (checked : Checked DialPlan) : Tells (settled path checked).run := by
  have hloaded : ∀ count, Tells (Exchange.note (loaded path count) : Work LoadError Unit).run :=
    fun count => .note (isTextual_records "" path count).1
  unfold settled
  cases checked <;> infer_instance

instance (path : String) : Tells (load files s path).run := by
  rw [load_eq]
  infer_instance

instance (routes : List Route) : Tells (firstPlan s destination sender routes).run := by
  induction routes with
  | nil =>
    have hunrouted : Tells (Exchange.note (unrouted destination) : Work CallError Unit).run :=
      .note (isTextual_records destination "" 0).2
    unfold firstPlan
    infer_instance
  | cons r rest ih =>
    unfold firstPlan
    refine Tells.run_bind inferInstance fun answer => ?_
    cases answer with
    | some plan => infer_instance
    | none => exact ih

instance (p : DialPlan) (direction : Option Direction) :
    Tells (p.route destination sender direction).run :=
  inferInstanceAs (Tells (firstPlan _ _ _ _).run)

end DialPlan

/-! ## Commands -/

namespace CommandLine

variable (s : Surroundings) (format : Format)

instance (rules : String) : Tells (loadPlan s rules) :=
  Tells.get_bind (fun _ => inferInstance) fun _ _ => rfl

instance (c : Command) : Tells (c.run s format) := by
  cases c with
  | fit pattern input =>
    refine Tells.bind inferInstance fun answer => ?_
    cases answer <;> infer_instance
  | transform input pattern template lenient =>
    refine Tells.get_bind (fun y => Tells.bind inferInstance fun answer => ?_) fun _ _ => rfl
    cases answer <;> infer_instance
  | route rules destination sender direction =>
    refine Tells.bind inferInstance fun loading => ?_
    rcases loading with e | plan
    · infer_instance
    · refine Tells.bind inferInstance fun answer => ?_
      rcases answer with ⟨_ | _ | _ | _⟩ | _ | _ <;> infer_instance
  | check rules =>
    refine Tells.bind inferInstance fun loading => ?_
    cases loading <;> infer_instance

/-- **The words behind the name of a command** are run without a look at the log. -/
instance (verb : Verb) (words : List String) : Tells (runWords s verb words) := by
  unfold runWords
  split <;> infer_instance

end CommandLine

end CallRouting
