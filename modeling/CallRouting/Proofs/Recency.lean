import CallRouting.Proofs.Compiled
import CallRouting.Proofs.Session
import Mathlib.Data.Finset.Card
import Mathlib.Data.List.Basic

/-!
# The store keeps the patterns that were answered last

Questions for patterns come in any order, and between them the settings change in any way. What the
store holds then, and what the next question does to it, can be told from the answers so far.

* **The last ones** (`recent`): of a list with the newest member in front, the newest distinct ones,
  as many as there is room for. A member that is added moves to the front if it is among them
  (`recent_cons_of_mem`); else it pushes the oldest out (`recent_cons_of_not_mem`).
* **Invariant** (`PatternStore.Recalls`): the sources of the kept patterns are the last ones that
  were answered with a pattern, and each pattern is what reading its source gives under some limits.
* **One question** (`Recalls.ask`): a question keeps the invariant, whatever the limits are.
* **A whole session** (`recalls_transcript`): so it holds after any turns, and from it follows how
  long a pattern is kept (`hits_iff_few_since`) and what the next question finds
  (`ask_transcript`).

The limits decide whether a text is read, never how: `parse_of_spare`.
-/

namespace CallRouting

/-! ## The last ones of a list -/

section Recent

variable {α : Type} [DecidableEq α] {a : α} {l : List α} {n : Nat}

/-- The distinct members of a list, as many as there is room for, the foremost ones first. -/
def recent (capacity : Nat) (l : List α) : List α := l.eraseDups.take capacity

/-- Members that are dropped can be dropped before or after the doubles. -/
theorem eraseDups_filter (keep : α → Bool) (l : List α) :
    (l.filter keep).eraseDups = l.eraseDups.filter keep := by
  match l with
  | [] => rfl
  | a :: l =>
    have hshorter : (l.filter (!· == a)).length < (a :: l).length :=
      Nat.lt_succ_of_le (List.length_filter_le ..)
    have ih := eraseDups_filter keep (l.filter (!· == a))
    by_cases ha : keep a = true
    · rw [List.filter_cons_of_pos ha, List.eraseDups_cons, List.eraseDups_cons,
        List.filter_cons_of_pos ha, ← ih, List.filter_filter, List.filter_filter]
      simp only [Bool.and_comm]
    · rw [List.filter_cons_of_neg ha, List.eraseDups_cons, List.filter_cons_of_neg ha, ← ih,
        List.filter_filter]
      congr 1
      refine List.filter_congr fun b _ => ?_
      by_cases hb : b = a
      · simp [hb, ha]
      · simp [hb]
termination_by l.length
decreasing_by exact hshorter

/-- The first member stays in front, and does not come again. -/
theorem eraseDups_cons_eq (a : α) (l : List α) :
    (a :: l).eraseDups = a :: l.eraseDups.filter (· ≠ a) := by
  rw [List.eraseDups_cons, eraseDups_filter]
  congr 2
  funext b
  by_cases hb : b = a <;> simp [hb]

/-- Without doubles, every member is there once. -/
theorem nodup_eraseDups (l : List α) : l.eraseDups.Nodup := by
  induction l with
  | nil => exact List.nodup_nil
  | cons a l ih =>
    rw [eraseDups_cons_eq, List.nodup_cons]
    exact ⟨by simp [List.mem_filter], ih.filter _⟩

/-- What is not among the first ones can be dropped without a change to them. -/
theorem take_filter_of_not_mem (h : a ∉ l.take n) : (l.filter (· ≠ a)).take n = l.take n := by
  induction l generalizing n with
  | nil => rfl
  | cons b l ih =>
    cases n with
    | zero => rfl
    | succ n =>
      rw [List.take_succ_cons, List.mem_cons, not_or] at h
      rw [List.filter_cons_of_pos (by simpa using Ne.symm h.1), List.take_succ_cons,
        List.take_succ_cons, ih h.2]

/-- When one of the first ones is dropped, the next one takes its place. -/
theorem take_filter_of_mem (hl : l.Nodup) (h : a ∈ l.take (n + 1)) :
    (l.filter (· ≠ a)).take n = (l.take (n + 1)).filter (· ≠ a) := by
  induction l generalizing n with
  | nil => cases h
  | cons b l ih =>
    rw [List.take_succ_cons] at h ⊢
    obtain ⟨hb, hl⟩ := List.nodup_cons.mp hl
    by_cases hba : b = a
    · have hne : ∀ c ∈ l, decide (c ≠ a) = true := by
        intro c hc
        simpa using fun hca : c = a => hb (by rwa [hba, ← hca])
      rw [List.filter_cons_of_neg (by simpa using hba), List.filter_cons_of_neg (by simpa using hba),
        List.filter_eq_self.mpr hne,
        List.filter_eq_self.mpr fun c hc => hne c (List.mem_of_mem_take hc)]
    · have hmem : a ∈ l.take n := (List.mem_cons.mp h).resolve_left (Ne.symm hba)
      cases n with
      | zero => cases hmem
      | succ n =>
        rw [List.filter_cons_of_pos (by simpa using hba),
          List.filter_cons_of_pos (by simpa using hba), List.take_succ_cons, ih hl hmem]

/-- One of the last ones that comes again moves to the front. -/
theorem recent_cons_of_mem (h : a ∈ recent n l) :
    recent n (a :: l) = a :: (recent n l).filter (· ≠ a) := by
  cases n with
  | zero => cases h
  | succ n =>
    rw [recent, eraseDups_cons_eq, List.take_succ_cons, recent,
      take_filter_of_mem (nodup_eraseDups l) h]

/-- One that is not among the last ones comes to the front, and the oldest one goes if there is no
room. -/
theorem recent_cons_of_not_mem (h : a ∉ recent n l) :
    recent n (a :: l) = (a :: recent n l).take n := by
  cases n with
  | zero => rfl
  | succ n =>
    have hfirst : a ∉ l.eraseDups.take n := fun hmem =>
      h (List.take_subset_take_left _ (Nat.le_succ n) hmem)
    rw [recent, eraseDups_cons_eq, List.take_succ_cons, take_filter_of_not_mem hfirst,
      List.take_succ_cons, recent, List.take_take, min_eq_left (Nat.le_succ n)]

/-- Without doubles there are as many members as there are different ones. -/
theorem length_eraseDups (l : List α) : l.eraseDups.length = l.toFinset.card := by
  have hset : l.toFinset = l.eraseDups.toFinset := by
    ext b
    simp only [List.mem_toFinset, List.mem_eraseDups]
  rw [hset, List.toFinset_card_of_nodup (nodup_eraseDups l)]

/-- There are as many last ones as there are different members, if there is room. -/
theorem length_recent (n : Nat) (l : List α) : (recent n l).length = min n l.toFinset.card := by
  rw [recent, List.length_take, length_eraseDups]

/-- **Who is among the last ones.** A member is, if fewer others than there is room for came after
it. -/
theorem mem_recent_iff :
    a ∈ recent n l ↔
      ∃ newer older, l = newer ++ a :: older ∧ a ∉ newer ∧ newer.toFinset.card < n := by
  have hplace : ∀ newer older : List α, a ∉ newer →
      (a ∈ recent n (newer ++ a :: older) ↔ newer.toFinset.card < n) := by
    intro newer older hnew
    have hsplit : ∃ rest, (newer ++ a :: older).eraseDups = newer.eraseDups ++ a :: rest := by
      rw [List.eraseDups_append, List.removeAll, List.filter_cons_of_pos (by simpa using hnew),
        eraseDups_cons_eq]
      exact ⟨_, rfl⟩
    obtain ⟨rest, hsplit⟩ := hsplit
    have hold : a ∉ newer.eraseDups.take n := fun hmem =>
      hnew (List.mem_eraseDups.mp (List.mem_of_mem_take hmem))
    rw [recent, hsplit, ← length_eraseDups, List.take_append, List.mem_append, or_iff_right hold]
    cases hroom : n - newer.eraseDups.length with
    | zero => simp; omega
    | succ m => simp; omega
  constructor
  · intro h
    have hmem : a ∈ l := List.mem_eraseDups.mp (List.mem_of_mem_take h)
    obtain ⟨newer, older, rfl, hnew⟩ := List.eq_append_cons_of_mem hmem
    exact ⟨newer, older, rfl, hnew, (hplace newer older hnew).mp h⟩
  · rintro ⟨newer, older, rfl, hnew, hcard⟩
    exact (hplace newer older hnew).mpr hcard

end Recent

/-! ## The limits do not decide how a text is read -/

/-- Limits that a text as long as this one cannot exceed. -/
def PatternLimits.Spare (limits : PatternLimits) (source : String) : Prop :=
  (source.length : Int) ≤ limits.maxLength ∧ (source.length : Int) ≤ limits.maxQuantifiers

/-- There are no more quantifiers than characters. -/
theorem Pattern.quantifiedCount_le_length_textOf (us : List Pattern.Phrase) :
    Pattern.quantifiedCount us ≤ (Pattern.textOf us).length :=
  List.countP_le_length.trans (Pattern.length_le_length_textOf us)

/-- **What is read under some limits is read the same way under limits that cannot be exceeded.** -/
theorem Pattern.parse_of_spare {limits spare : PatternLimits} {source : String} {p : Pattern}
    (h : parse limits source = .ok p) (hspare : spare.Spare source) :
    parse spare source = .ok p := by
  obtain ⟨-, us, hne, hus, htext, hp⟩ := parse_eq_ok_iff.mp h
  have hcount := quantifiedCount_le_length_textOf us
  rw [htext, String.length_toList] at hcount
  obtain ⟨hlength, hquantifiers⟩ := hspare
  refine parse_eq_ok_iff.mpr ⟨by rwa [String.length_toList], us, hne, ⟨hus.wellFormed, ?_⟩, htext, hp⟩
  exact Or.inr (by omega)

/-! ## The store -/

/-- Whether a store keeps the patterns that were answered last, each one as reading its source gives
under some limits. The sources that were answered come last one first. -/
structure PatternStore.Recalls (store : PatternStore) (answered : List String) : Prop where
  sources : store.entries.map (·.source) = recent store.capacity answered
  read : ∀ p ∈ store.entries, ∃ limits, Pattern.parse limits p.source = .ok p

namespace PatternStore

variable {store : PatternStore} {answered : List String} {limits : PatternLimits} {source : String}

/-- A store without patterns recalls that nothing was answered. -/
theorem recalls_blank (capacity : Nat) : (blank capacity).Recalls [] :=
  ⟨List.take_nil.symm, fun _ hp => absurd hp List.not_mem_nil⟩

/-- What was answered lately is found. -/
theorem Recalls.ask_of_mem (h : store.Recalls answered) (limits : PatternLimits)
    (hsource : source ∈ recent store.capacity answered) :
    ∃ p ∈ store.entries, p.source = source ∧ store.ask limits source = (.ok p, store.renew p) := by
  rw [← h.sources] at hsource
  obtain ⟨p, hp, hps⟩ := List.mem_map.mp hsource
  cases hfind : store.find? source with
  | none =>
    have hno := List.find?_eq_none.mp hfind p hp
    exact absurd hps (by simpa using hno)
  | some q =>
    refine ⟨q, List.mem_of_find?_eq_some hfind, by simpa using List.find?_some hfind, ?_⟩
    rw [ask, hfind]

/-- What was not answered lately is read. -/
theorem Recalls.ask_of_not_mem (h : store.Recalls answered) (limits : PatternLimits)
    (hsource : source ∉ recent store.capacity answered) :
    store.ask limits source =
      match Pattern.parse limits source with
      | .ok p => (.ok p, store.keep p)
      | .error e => (.error e, { store with misses := store.misses + 1 }) := by
  have hfind : store.find? source = none := by
    refine List.find?_eq_none.mpr fun p hp hps => hsource ?_
    rw [← h.sources]
    exact List.mem_map.mpr ⟨p, hp, by simpa using hps⟩
  rw [ask, hfind]
  cases Pattern.parse limits source <;> rfl

/-- What was not answered lately is answered as reading it gives. -/
theorem Recalls.fst_ask_of_not_mem (h : store.Recalls answered) (limits : PatternLimits)
    (hsource : source ∉ recent store.capacity answered) :
    (store.ask limits source).1 = Pattern.parse limits source := by
  rw [h.ask_of_not_mem limits hsource]
  cases Pattern.parse limits source <;> rfl

/-- A pattern that is found moves to the front of what was answered. -/
theorem Recalls.renew {p : Pattern} (h : store.Recalls answered) (hp : p ∈ store.entries) :
    (store.renew p).Recalls (p.source :: answered) := by
  have hmem : p.source ∈ recent store.capacity answered := by
    rw [← h.sources]
    exact List.mem_map_of_mem hp
  constructor
  · change (p :: store.entries.filter (·.source ≠ p.source)).map (·.source) =
      recent store.capacity (p.source :: answered)
    rw [recent_cons_of_mem hmem, ← h.sources, List.filter_map, List.map_cons]
    rfl
  · intro q hq
    rcases List.mem_cons.mp hq with rfl | hq
    · exact h.read q hp
    · exact h.read q (List.mem_of_mem_filter hq)

/-- A pattern that was read comes to the front of what was answered. -/
theorem Recalls.keep {p : Pattern} (h : store.Recalls answered)
    (hp : Pattern.parse limits p.source = .ok p)
    (hnot : p.source ∉ recent store.capacity answered) :
    (store.keep p).Recalls (p.source :: answered) := by
  constructor
  · change ((p :: store.entries).take store.capacity).map (·.source) =
      recent store.capacity (p.source :: answered)
    rw [recent_cons_of_not_mem hnot, ← h.sources, List.map_take, List.map_cons]
  · intro q hq
    rcases List.mem_cons.mp (List.mem_of_mem_take hq) with rfl | hq
    · exact ⟨limits, hp⟩
    · exact h.read q hq

/-- **One question.** The store goes on recalling what was answered, whatever the limits are. -/
theorem Recalls.ask (h : store.Recalls answered) (limits : PatternLimits) (source : String) :
    (store.ask limits source).2.Recalls
      (if (store.ask limits source).1.isOk then source :: answered else answered) := by
  by_cases hmem : source ∈ recent store.capacity answered
  · obtain ⟨p, hp, rfl, hask⟩ := h.ask_of_mem limits hmem
    rw [hask]
    exact h.renew hp
  · rw [h.ask_of_not_mem limits hmem]
    cases hparse : Pattern.parse limits source with
    | error e => exact ⟨h.sources, h.read⟩
    | ok p =>
      obtain rfl := Pattern.source_of_parse hparse
      exact h.keep hparse hmem

/-- Every pattern that is given out is what reading its source gives under limits that cannot be
exceeded. -/
theorem Recalls.parse_of_ask {spare : PatternLimits} {p : Pattern} (h : store.Recalls answered)
    (hask : (store.ask limits source).1 = .ok p) (hspare : spare.Spare source) :
    Pattern.parse spare source = .ok p := by
  by_cases hmem : source ∈ recent store.capacity answered
  · obtain ⟨q, hq, rfl, hfound⟩ := h.ask_of_mem limits hmem
    obtain ⟨read, hread⟩ := h.read q hq
    rw [hfound] at hask
    cases hask
    exact Pattern.parse_of_spare hread hspare
  · rw [h.ask_of_not_mem limits hmem] at hask
    cases hparse : Pattern.parse limits source with
    | error e => rw [hparse] at hask; cases hask
    | ok q =>
      rw [hparse] at hask
      cases hask
      exact Pattern.parse_of_spare hparse hspare

/-- The store has as many patterns as were answered, if there is room. -/
theorem Recalls.length_entries (h : store.Recalls answered) :
    store.entries.length = min store.capacity answered.toFinset.card := by
  rw [← length_recent, ← h.sources, List.length_map]

/-- **A hit or a miss.** A question is a hit exactly if its source was answered lately. -/
theorem Recalls.hits_ask (h : store.Recalls answered) (limits : PatternLimits) (source : String) :
    ((store.ask limits source).2.hits = store.hits + 1 ↔
        source ∈ recent store.capacity answered) ∧
      ((store.ask limits source).2.misses = store.misses + 1 ↔
        source ∉ recent store.capacity answered) := by
  by_cases hmem : source ∈ recent store.capacity answered
  · obtain ⟨p, -, -, hask⟩ := h.ask_of_mem limits hmem
    simp [hask, PatternStore.renew, hmem]
  · rw [h.ask_of_not_mem limits hmem]
    cases Pattern.parse limits source <;> simp [PatternStore.keep, hmem]

/-- **A failure.** A question that fails changes nothing but the count of misses. -/
theorem snd_ask_of_error {e : PatternError} (h : (store.ask limits source).1 = .error e) :
    (store.ask limits source).2 = { store with misses := store.misses + 1 } := by
  unfold ask at h ⊢
  cases hfind : store.find? source with
  | some p => simp [hfind] at h
  | none =>
    cases hparse : Pattern.parse limits source with
    | error e' => rfl
    | ok p => simp [hfind, hparse] at h

end PatternStore

/-! ## A session with its answers -/

namespace Exchange

/-- What can happen between one question and the next. -/
inductive Turn where
  /-- The settings change. -/
  | configure (settings : Settings)
  /-- The pattern with a source is asked for. -/
  | ask (source : String)
  deriving DecidableEq, Repr

/-- Whether a turn asks for a pattern. -/
def Turn.isAsk : Turn → Bool
  | .configure _ => false
  | .ask _ => true

/-- A question for a pattern with its answer. -/
structure Reply where
  source : String
  answer : Except PatternError Pattern

/-- What was said in a session, and how it left the exchange. -/
structure Transcript where
  /-- The replies, last one first. -/
  replies : List Reply
  exchange : Exchange

namespace Transcript

/-- The sources that were answered with a pattern, last one first. -/
def answered (t : Transcript) : List String :=
  (t.replies.filter (·.answer.isOk)).map (·.source)

/-- One more turn. -/
def next (t : Transcript) : Turn → Transcript
  | .configure settings => ⟨t.replies, { t.exchange with settings }⟩
  | .ask source =>
    ⟨⟨source, (Exchange.ask source t.exchange).1⟩ :: t.replies, (Exchange.ask source t.exchange).2⟩

/-- What was answered after a question. -/
theorem answered_next_ask (t : Transcript) (source : String) :
    (t.next (.ask source)).answered =
      if (Exchange.ask source t.exchange).1.isOk then source :: t.answered else t.answered := by
  rw [answered, next, List.filter_cons]
  split <;> rfl

end Transcript

/-- A session from the start. -/
def transcript (settings : Settings) (turns : List Turn) : Transcript :=
  turns.foldl Transcript.next ⟨[], start settings⟩

/-- The session before the last turn. -/
theorem transcript_concat (settings : Settings) (turns : List Turn) (turn : Turn) :
    transcript settings (turns ++ [turn]) = (transcript settings turns).next turn :=
  List.foldl_concat ..

variable {settings : Settings} {turns : List Turn}

/-- A turn is a step of a session. -/
theorem Transcript.step_next {κ : Type} {kept : Settings → κ} (t : Transcript) {turn : Turn}
    (h : ∀ s, turn = .configure s → kept s = kept t.exchange.settings) :
    Step kept t.exchange (t.next turn).exchange := by
  cases turn with
  | configure s => exact .configure t.exchange s (h s rfl)
  | ask source => exact .ask t.exchange source

/-- **A whole session** in which some part of the settings is kept. -/
theorem session_transcript {κ : Type} {kept : Settings → κ}
    (h : ∀ s, .configure s ∈ turns → kept s = kept settings) :
    Session kept (start settings) (transcript settings turns).exchange := by
  induction turns using List.reverseRecOn with
  | nil => exact .refl
  | append_singleton turns turn ih =>
    have hsession := ih fun s hs => h s (List.mem_append_left _ hs)
    rw [transcript_concat]
    refine hsession.tail (Transcript.step_next _ fun s hs => ?_)
    rw [h s (by simp [hs]), hsession.kept_eq]
    rfl

/-- The size of the store is fixed at the start. -/
theorem capacity_transcript (settings : Settings) (turns : List Turn) :
    (transcript settings turns).exchange.patterns.capacity = settings.patternStoreSize.toNat := by
  induction turns using List.reverseRecOn with
  | nil => rfl
  | append_singleton turns turn ih =>
    rw [transcript_concat, ← ih]
    cases turn with
    | configure s => rfl
    | ask source => exact PatternStore.capacity_ask ..

/-- **A whole session.** The store recalls what was answered. -/
theorem recalls_transcript (settings : Settings) (turns : List Turn) :
    (transcript settings turns).exchange.patterns.Recalls
      (transcript settings turns).answered := by
  induction turns using List.reverseRecOn with
  | nil => exact PatternStore.recalls_blank _
  | append_singleton turns turn ih =>
    rw [transcript_concat]
    cases turn with
    | configure s => exact ih
    | ask source =>
      rw [Transcript.answered_next_ask]
      exact ih.ask (transcript settings turns).exchange.settings.limits source

/-- **A whole session.** Every question is counted once. -/
theorem count_transcript (settings : Settings) (turns : List Turn) :
    (transcript settings turns).exchange.patterns.hits +
      (transcript settings turns).exchange.patterns.misses = turns.countP Turn.isAsk := by
  induction turns using List.reverseRecOn with
  | nil => rfl
  | append_singleton turns turn ih =>
    rw [transcript_concat, List.countP_append, ← ih]
    cases turn with
    | configure s => rfl
    | ask source => exact PatternStore.count_ask ..

/-- **How long a pattern is kept.** A question is a hit exactly if its source was answered with a
pattern before, and since then fewer others were than the store has room for. -/
theorem hits_iff_few_since (settings : Settings) (turns : List Turn) (source : String) :
    (ask source (transcript settings turns).exchange).2.patterns.hits =
        (transcript settings turns).exchange.patterns.hits + 1 ↔
      ∃ newer older, (transcript settings turns).answered = newer ++ source :: older ∧
        source ∉ newer ∧ newer.toFinset.card < settings.patternStoreSize.toNat := by
  rw [← mem_recent_iff, ← capacity_transcript settings turns]
  exact ((recalls_transcript settings turns).hits_ask _ source).1

/-- **What the next question finds**, after any questions and any changes of the settings.

It is a hit exactly if its source is among the last distinct ones that were answered with a pattern,
as many as the store has room for; else the text is read under the limits in force. A pattern that
is given out is the one that an exchange gives that was just started, with limits that the source
cannot exceed. A failure changes nothing but the count of misses. Every question is counted, and the
store is as full as what was answered allows. While the limits stay, every answer is the one that
the exchange gave at the start. -/
theorem ask_transcript (settings : Settings) (turns : List Turn) (source : String) :
    let t := transcript settings turns
    let before := t.exchange
    let answer := (ask source before).1
    let after := (ask source before).2
    let last := recent settings.patternStoreSize.toNat t.answered
    (after.patterns.hits = before.patterns.hits + 1 ↔ source ∈ last) ∧
      (after.patterns.misses = before.patterns.misses + 1 ↔ source ∉ last) ∧
      (source ∉ last → answer = (ask source (start before.settings)).1) ∧
      (∀ p, answer = .ok p →
        ∀ s : Settings, s.limits.Spare source → (ask source (start s)).1 = .ok p) ∧
      (∀ e, answer = .error e →
        after = { before with
          patterns := { before.patterns with misses := before.patterns.misses + 1 } }) ∧
      before.patterns.hits + before.patterns.misses = turns.countP Turn.isAsk ∧
      before.patterns.entries.length =
        min settings.patternStoreSize.toNat t.answered.toFinset.card ∧
      ((∀ s, .configure s ∈ turns → s.limits = settings.limits) →
        answer = (ask source (start settings)).1) := by
  intro t before answer after last
  have hrecalls : before.patterns.Recalls t.answered := recalls_transcript settings turns
  have hroom : before.patterns.capacity = settings.patternStoreSize.toNat :=
    capacity_transcript settings turns
  have hstart : ∀ s : Settings, (ask source (start s)).1 = Pattern.parse s.limits source :=
    fun s => (faithful_start s).fst_ask source
  have hcount := hrecalls.hits_ask before.settings.limits source
  rw [hroom] at hcount
  refine ⟨hcount.1, hcount.2, fun hmem => ?_, fun p hp s hs => ?_, fun e he => ?_,
    count_transcript settings turns, ?_, fun hlimits => ?_⟩
  · rw [hstart]
    exact hrecalls.fst_ask_of_not_mem before.settings.limits (by rwa [hroom])
  · rw [hstart]
    exact hrecalls.parse_of_ask hp hs
  · have hstore := PatternStore.snd_ask_of_error he
    change { before with patterns := (before.patterns.ask before.settings.limits source).2 } = _
    rw [hstore]
  · rw [hrecalls.length_entries, hroom]
  · have hsession := session_transcript hlimits
    have hfaithful := hsession.faithful (fun _ _ h => h) (faithful_start settings)
    rw [hstart]
    refine (hfaithful.fst_ask source).trans ?_
    rw [hsession.kept_eq]
    rfl

/-- A pattern is found again when the limits would refuse it by now, and questions that failed do
not push it out. -/
theorem ask_transcript_shorter :
    let turns : List Turn := [.ask "X", .configure { maxPatternLength := 0 }, .ask "N", .ask "["]
    let before := (transcript { patternStoreSize := 1 } turns).exchange
    (ask "X" before).2.patterns.hits = before.patterns.hits + 1 :=
  (ask_transcript { patternStoreSize := 1 }
    [.ask "X", .configure { maxPatternLength := 0 }, .ask "N", .ask "["] "X").1.mpr (by decide)

end Exchange

end CallRouting
