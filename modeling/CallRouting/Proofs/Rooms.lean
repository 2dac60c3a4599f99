import CallRouting.Proofs.Documents

/-!
# With more room no answer changes

What a caller leaves to a call decides only whether there is an answer. With more room a search that
was given up may come to an end, and so may the reading of a document; an answer that was given with
less room is the one that is given with more.

* **Answers** (`Widens`): how an answer with more room goes with the one with less.
* **Readers** (`Json.widens_readers`): one level of nesting is answered alike if the levels inside
  are, by induction on how deep the readers may go; hence whole documents are
  (`DialPlan.widens_readDocument`).
* **Searches** (`Pattern.tooDeep_of_le`): where there is no room for a search, there is none with
  less.
* **Questions** (`Roomy`): questions are put together as they are in decisions; those about numbers
  depend on the room for searches only, and loading on the one for documents only
  (`DialPlan.widens_load`).
-/

namespace CallRouting

open Exchange (decision decision_bind Neutral fitTo fitNow settingsNow)

/-! ## Answers -/

/-- Whether an answer given with more room is the one given with less, unless that one is a failure
for lack of room. -/
def Widens {ε α : Type} (lack : ε → Prop) (less more : Except ε α) : Prop :=
  (∃ e, lack e ∧ less = .error e) ∨ more = less

namespace Widens

variable {ε ε' α β : Type} {lack : ε → Prop} {less more : Except ε α}

/-- An answer that is given without regard to the room. -/
theorem refl (r : Except ε α) : Widens lack r r := Or.inr rfl

/-- What is done with an answer. -/
theorem bind {f g : α → Except ε β} (h : Widens lack less more)
    (hfg : ∀ a, Widens lack (f a) (g a)) : Widens lack (less >>= f) (more >>= g) := by
  rcases h with ⟨e, he, rfl⟩ | rfl
  · exact Or.inl ⟨e, he, rfl⟩
  · cases more with
    | error e => exact refl _
    | ok a => exact hfg a

/-- An answer whose failures are reported in other words. -/
theorem mapError {lack' : ε' → Prop} {g : ε → ε'} (hg : ∀ e, lack e → lack' (g e))
    (h : Widens lack less more) : Widens lack' (less.mapError g) (more.mapError g) := by
  rcases h with ⟨e, he, rfl⟩ | rfl
  · exact Or.inl ⟨g e, hg e he, rfl⟩
  · exact refl _

/-- An answer that there was room for stays. -/
theorem eq_of_ne {e : ε} (h : Widens (· = e) less more) (hne : less ≠ .error e) : more = less := by
  rcases h with ⟨_, rfl, hless⟩ | hmore
  · exact absurd hless hne
  · exact hmore

/-- An answer that was given stays. -/
theorem eq_ok {a : α} (h : Widens lack less more) (hless : less = .ok a) : more = .ok a := by
  rcases h with ⟨e, -, rfl⟩ | rfl
  · cases hless
  · exact hless

end Widens

/-! ## Documents -/

namespace Json

/-- **The readers of a level are answered alike with more room**, if those of the levels inside
are. -/
theorem widens_readers (fuel : Nat) : ∀ {room room' : Nat}, room ≤ room' →
    (∀ cs, Widens (· = .tooDeep) (readValue fuel room cs) (readValue fuel room' cs)) ∧
      (∀ seen cs, Widens (· = .tooDeep) (readFields fuel room seen cs)
        (readFields fuel room' seen cs)) ∧
      ∀ cs, Widens (· = .tooDeep) (readItems fuel room cs) (readItems fuel room' cs) := by
  induction fuel with
  | zero =>
    intro room room' _
    refine ⟨fun cs => ?_, fun seen cs => ?_, fun cs => ?_⟩
    · rw [readValue, readValue]
      exact .refl _
    · rw [readFields, readFields]
      exact .refl _
    · rw [readItems, readItems]
      exact .refl _
  | succ fuel ih =>
    intro room room' hle
    refine ⟨fun cs => ?_, fun seen cs => ?_, fun cs => ?_⟩
    · unfold readValue
      split
      · exact .refl _
      -- an object and an array take one level of the room, if there is one
      · cases room with
        | zero => exact Or.inl ⟨_, rfl, rfl⟩
        | succ room =>
          obtain ⟨room', rfl⟩ := Nat.exists_eq_succ_of_ne_zero (Nat.ne_zero_of_lt hle)
          obtain ⟨-, hfields, -⟩ := ih (Nat.le_of_succ_le_succ hle)
          dsimp only
          split
          · exact .refl _
          · exact (hfields _ _).bind fun _ => .refl _
      · cases room with
        | zero => exact Or.inl ⟨_, rfl, rfl⟩
        | succ room =>
          obtain ⟨room', rfl⟩ := Nat.exists_eq_succ_of_ne_zero (Nat.ne_zero_of_lt hle)
          obtain ⟨-, -, hitems⟩ := ih (Nat.le_of_succ_le_succ hle)
          dsimp only
          split
          · exact .refl _
          · exact (hitems _).bind fun _ => .refl _
      · exact .refl _
    · obtain ⟨hvalue, hfields, -⟩ := ih hle
      unfold readFields
      split
      · refine Widens.bind (.refl _) ?_
        rintro ⟨name, left⟩
        dsimp only
        split
        · refine (hvalue _).bind ?_
          rintro ⟨value, left⟩
          dsimp only
          split
          · exact .refl _
          · exact hfields _ _
          · exact .refl _
        · exact .refl _
      · exact .refl _
    · obtain ⟨hvalue, -, hitems⟩ := ih hle
      unfold readItems
      refine (hvalue _).bind ?_
      rintro ⟨item, left⟩
      dsimp only
      split
      · exact .refl _
      · exact (hitems _).bind fun _ => .refl _
      · exact .refl _

/-- A text is read alike with more room. -/
theorem widens_read {room room' : Nat} (h : room ≤ room') (text : String) :
    Widens (· = .tooDeep) (read room text) (read room' text) := by
  have hchars : Widens (· = .tooDeep) (readChars room text.toList)
      (readChars room' text.toList) :=
    ((widens_readers _ h).1 _).bind fun _ => .refl _
  unfold read
  dsimp only
  split_ifs
  · exact .refl _
  · rcases hchars with ⟨_, rfl, hless⟩ | hmore
    · rw [hless]
      exact Or.inl ⟨_, rfl, rfl⟩
    · rw [hmore]
      exact .refl _

end Json

/-- A document is read alike with more room. -/
theorem DialPlan.widens_readDocument {room room' : Nat} (h : room ≤ room') (path : String)
    (content : Except FileFault (List UInt8)) :
    Widens (· = .tooDeep) (readDocument room path content) (readDocument room' path content) := by
  refine Widens.bind (.refl _) fun bytes => Widens.bind (.refl _) fun text => ?_
  rcases Json.widens_read h (String.ofList (Text.unifyLines text.toList)) with
    ⟨_, rfl, hless⟩ | hmore
  · rw [hless]
    exact Or.inl ⟨_, rfl, rfl⟩
  · rw [hmore]
    exact .refl _

/-! ## Searches -/

namespace Pattern

/-- What takes a text with some pieces and all that is left takes it with fewer pieces and all that
is left. -/
theorem isSome_search_take {ps : List Piece} {n m : Nat} (h : n ≤ m) {cs : List Char}
    (hm : (search (ps.take m ++ [.rest]) cs).isSome = true) :
    (search (ps.take n ++ [.rest]) cs).isSome = true := by
  induction n generalizing ps m cs with
  | zero => simp [search, Piece.takes]
  | succ n ih =>
    obtain ⟨m, rfl⟩ := Nat.exists_eq_succ_of_ne_zero (Nat.ne_zero_of_lt h)
    cases ps with
    | nil => exact hm
    | cons piece ps =>
      simp only [List.take_succ_cons, List.cons_append, search, List.findSome?_isSome_iff,
        Option.isSome_map] at hm ⊢
      obtain ⟨t, ht, hleft⟩ := hm
      exact ⟨t, ht, ih (Nat.le_of_succ_le_succ h) hleft⟩

/-- **Where there is no room for a search, there is none with less.** -/
theorem tooDeep_of_le {p : Pattern} {room room' : Nat} (h : room ≤ room') {text : String}
    (hdeep : p.tooDeep room' text = true) : p.tooDeep room text = true := by
  unfold tooDeep at hdeep ⊢
  rw [Bool.and_eq_true, decide_eq_true_eq] at hdeep ⊢
  simp only [(searchFrom_start_agrees _ _).answer, List.map_take] at hdeep ⊢
  exact ⟨Nat.lt_of_le_of_lt h hdeep.1, isSome_search_take h hdeep.2⟩

end Pattern

/-- A number is fitted alike with more room. -/
theorem Exchange.widens_fitTo {room room' : Nat} (h : room ≤ room') (p : Pattern)
    (number : String) : Widens (· = .tooDeep) (fitTo p number room) (fitTo p number room') := by
  unfold fitTo
  split_ifs with hless _ hmore
  · exact .refl _
  · exact Or.inl ⟨_, rfl, rfl⟩
  · exact absurd (Pattern.tooDeep_of_le h hmore) hless
  · exact .refl _

/-! ## Configurations -/

/-- The settings as they are configured, whatever the rooms of the call are. -/
def Settings.configured (settings : Settings) : Settings := { settings with rooms := {} }

/-- What is configured is the same under one configuration. -/
theorem Settings.eq_of_configured {α : Type} {s t : Settings} (h : s.configured = t.configured)
    (f : Settings → α) (hf : ∀ s : Settings, f s = f s.configured) : f s = f t := by
  rw [hf s, h, ← hf t]

/-- Under one configuration patterns are read alike. -/
theorem Settings.parse_eq_of_configured {s t : Settings} (h : s.configured = t.configured)
    (source : String) : Pattern.parse s.limits source = Pattern.parse t.limits source :=
  eq_of_configured h (fun s => Pattern.parse s.limits source) fun _ => rfl

/-! ## Questions -/

/-- A question that is answered alike with more room of one kind, and whatever the other rooms
are. -/
class Roomy {ε α : Type} (room : Rooms → Nat) (lack : ε → Prop) (w : Work ε α) : Prop where
  widens : ∀ {s t : Settings}, s.configured = t.configured → room s.rooms ≤ room t.rooms →
    Widens lack (decision s w) (decision t w)

namespace Roomy

variable {ε ε' α β : Type} {room : Rooms → Nat} {lack : ε → Prop} {w : Work ε α}

instance (a : α) : Roomy room lack (pure a : Work ε α) := ⟨fun _ _ => .refl _⟩

instance (e : ε) : Roomy room lack (throw e : Work ε α) := ⟨fun _ _ => .refl _⟩

instance (r : LogRecord) : Roomy room lack (Exchange.note r : Work ε Unit) :=
  ⟨fun _ _ => .refl _⟩

/-- Asking for a pattern takes no room. -/
instance (source : String) (lack : PatternError → Prop) :
    Roomy room lack (Exchange.ask source) := by
  refine ⟨fun h _ => ?_⟩
  rw [Exchange.decision_ask, Exchange.decision_ask, Settings.parse_eq_of_configured h]
  exact .refl _

instance (c : Prop) [Decidable c] {w w' : Work ε α} [Roomy room lack w] [Roomy room lack w'] :
    Roomy room lack (if c then w else w') := by
  split <;> infer_instance

/-- Work that fails for no lack of room, and whose failures are reported in other words. -/
instance {lack' : ε' → Prop} (g : ε → ε') [hw : Roomy room (fun _ => False) w] :
    Roomy room lack' (ExceptT.adapt g w : Work ε' α) := by
  refine ⟨fun h hle => ?_⟩
  rw [Exchange.decision_adapt, Exchange.decision_adapt]
  exact (hw.widens h hle).mapError fun _ hfalse => hfalse.elim

/-- Two questions put together. -/
theorem bind {f : α → Work ε β} [Neutral w] (hw : Roomy room lack w)
    (hneutral : ∀ a, Neutral (f a)) (hf : ∀ a, Roomy room lack (f a)) :
    Roomy room lack (w >>= f) := by
  refine ⟨fun h hle => ?_⟩
  rw [decision_bind, decision_bind]
  exact (hw.widens h hle).bind fun a => (hf a).widens h hle

instance {f : α → Work ε β} [Neutral w] [hneutral : ∀ a, Neutral (f a)]
    [hw : Roomy room lack w] [hf : ∀ a, Roomy room lack (f a)] : Roomy room lack (w >>= f) :=
  hw.bind hneutral hf

/-- A question that looks at the configuration first. -/
theorem settingsNow_bind {f : Settings → Work ε β} [∀ s, Neutral (f s)]
    (hsame : ∀ s t : Settings, s.configured = t.configured → f s = f t)
    (hf : ∀ s, Roomy room lack (f s)) : Roomy room lack (settingsNow >>= f) := by
  refine ⟨fun {s t} h hle => ?_⟩
  rw [decision_bind, decision_bind, Exchange.decision_settingsNow,
    Exchange.decision_settingsNow, Exchange.ok_bind, Exchange.ok_bind, hsame s t h]
  exact (hf t).widens h hle

end Roomy

/-! ### Numbers and patterns -/

namespace Exchange

variable (source number template : String) (strict : Bool)

instance {lack : CallError → Prop} {room : Rooms → Nat} : Roomy room lack (pattern source) :=
  inferInstanceAs (Roomy room lack (ExceptT.adapt CallError.pattern (ask source)))

instance (p : Pattern) : Roomy Rooms.search (· = CallError.tooDeep) (fitNow p number) := by
  refine ⟨fun _ hle => ?_⟩
  rw [decision_fitNow, decision_fitNow]
  exact widens_fitTo hle p number

instance : Roomy Rooms.search (· = CallError.tooDeep) (fit? source number) := by
  unfold fit?
  infer_instance

instance : Roomy Rooms.search (· = CallError.tooDeep) (fits source number) := by
  unfold fits
  infer_instance

instance (r : Except CallError String) : Roomy Rooms.search (· = CallError.tooDeep)
    (liftM r : Work CallError String) := ⟨fun _ _ => .refl _⟩

instance : Roomy Rooms.search (· = CallError.tooDeep)
    (transform strict number source template) := by
  rw [transform_eq]
  infer_instance

end Exchange

/-! ### Routes -/

namespace Switch

variable (s : Switch) (r : Route)

instance (pattern digits : String) :
    Roomy Rooms.search (· = CallError.tooDeep) (accepts pattern digits) := by
  unfold accepts
  split <;> infer_instance

instance (senderPattern : String) (sender : Option String) :
    Roomy Rooms.search (· = CallError.tooDeep) (s.authorizes senderPattern sender) := by
  have hknown : ∀ sender, Roomy Rooms.search (· = CallError.tooDeep)
      (settingsNow >>= fun settings =>
        accepts senderPattern (Number.digits (s.normalize settings sender))) := by
    intro sender
    refine Roomy.settingsNow_bind (fun t u h => ?_) fun _ => inferInstance
    exact Settings.eq_of_configured h
      (fun t => accepts senderPattern (Number.digits (s.normalize t sender))) fun _ => rfl
  unfold authorizes
  infer_instance

instance (normal : String) :
    Roomy Rooms.search (· = CallError.tooDeep) (s.address r normal) := by
  unfold address
  split <;> infer_instance

instance (destination : String) (sender : Option String) :
    Roomy Rooms.search (· = CallError.tooDeep) (s.route r destination sender) := by
  unfold route
  refine Roomy.settingsNow_bind (fun t u h => ?_) fun _ => inferInstance
  have hnormal : s.normalize t destination = s.normalize u destination :=
    Settings.eq_of_configured h (fun t => s.normalize t destination) fun _ => rfl
  rw [hnormal]

end Switch

namespace DialPlan

variable (s : Switch) (destination : String) (sender : Option String)

instance (routes : List Route) :
    Roomy Rooms.search (· = CallError.tooDeep) (firstPlan s destination sender routes) := by
  induction routes with
  | nil =>
    unfold firstPlan
    infer_instance
  | cons r rest ih =>
    refine ⟨fun h hle => ?_⟩
    rw [decision_firstPlan_cons, decision_firstPlan_cons]
    refine (Roomy.widens h hle).bind fun answer => ?_
    split_ifs
    · exact .refl _
    · exact ih.widens h hle

instance (p : DialPlan) (direction : Option Direction) :
    Roomy Rooms.search (· = CallError.tooDeep) (p.route destination sender direction) :=
  inferInstanceAs (Roomy _ _ (firstPlan _ _ _ _))

end DialPlan

/-! ### Loading -/

section Loading

variable {room : Rooms → Nat} {lack : PatternError → Prop}

namespace Rule

instance (place : List PathStep) (source : String) :
    Roomy room lack (liftM (checkPattern place source) : Work PatternError (Checked String)) := by
  refine ⟨fun h _ => ?_⟩
  rw [decision_checkPattern, decision_checkPattern, Settings.parse_eq_of_configured h]
  exact .refl _

instance (place : List PathStep) (record : Json) (name : String) (standard : Checked String) :
    Roomy room lack
      (liftM (patternAt record place name standard) : Work PatternError (Checked String)) := by
  unfold patternAt
  split
  · infer_instance
  · exact ⟨fun _ _ => .refl _⟩

instance (r : Rule) : Roomy room lack r.checkTemplate := by
  unfold checkTemplate
  cases r.template with
  | none => infer_instance
  | some template =>
    have hchecked : ∀ p : Pattern, Roomy room lack (settingsNow >>= fun settings =>
        pure (checkRuns settings.strictTemplates p template)) := by
      intro p
      refine Roomy.settingsNow_bind (fun t u h => ?_) fun _ => inferInstance
      exact Settings.eq_of_configured h
        (fun t => pure (checkRuns t.strictTemplates p template)) fun _ => rfl
    infer_instance

instance (place : List PathStep) (checked : Checked Rule) :
    Roomy room lack (accept place checked) := by
  unfold accept
  cases checked with
  | error findings => infer_instance
  | ok r =>
    refine Roomy.bind inferInstance (fun c => ?_) fun c => ?_
    all_goals cases c <;> infer_instance

instance (place : List PathStep) (record : Json) : Roomy room lack (Rule.ofJson place record) := by
  unfold Rule.ofJson
  split <;> infer_instance

end Rule

namespace DialPlan

instance (index : Nat) (items : List Json) : Roomy room lack (rulesFrom index items) := by
  induction items generalizing index with
  | nil =>
    unfold rulesFrom
    infer_instance
  | cons item rest ih =>
    unfold rulesFrom
    infer_instance

instance (document : Json) : Roomy room lack (rulesOf document) := by
  unfold rulesOf
  split
  · split <;> infer_instance
  · infer_instance

instance (s : Switch) (document : Json) : Roomy room lack (ofDocument s document) := by
  unfold ofDocument
  infer_instance

end DialPlan

end Loading

namespace DialPlan

variable {s t : Settings}

/-- **A dial plan is loaded alike with more room for documents.** -/
theorem widens_load (h : s.configured = t.configured)
    (hle : s.rooms.document ≤ t.rooms.document) (files : Files) (switch : Switch) (path : String) :
    Widens (· = .tooDeep) (decision s (load files switch path))
      (decision t (load files switch path)) := by
  have hsettled : ∀ checked, Roomy Rooms.document (· = LoadError.tooDeep)
      (settled (Path.plain path) checked) := by
    intro checked
    cases checked <;> (unfold settled; infer_instance)
  rw [load_eq, Exchange.decision_ite, Exchange.decision_ite]
  split_ifs
  · exact .refl _
  · simp only [decision_bind, Exchange.decision_settingsNow, Exchange.ok_bind,
      Exchange.decision_lift]
    refine (widens_readDocument hle _ _).bind fun document => ?_
    refine Widens.bind (Roomy.widens h hle) fun checked => ?_
    exact (hsettled checked).widens h hle

end DialPlan

end CallRouting
