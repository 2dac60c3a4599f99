import CallRouting.Text.Utf8
import Mathlib.Tactic.ByContra
import Mathlib.Tactic.SplitIfs

/-!
# What is read as UTF-8

Bytes are read as a text exactly if they are the UTF-8 form of that text.

* **Lead bytes** (`lead?_two`, `lead?_three`, `lead?_four`, `lead?_cases`): what a lead byte
  announces, by the first of the digits of base 64 that a code point falls into.
* **Forms** (`Form`, `form_iff`): the forms of characters, by these digits. The bounds of the second
  digit keep out overlong forms, surrogates and numbers past the last code point.
* **One character** (`decodeFrom_form`, `exists_form`): a form is read as its character, and what is
  read as a character is its form.
* **A text** (`decode_eq_ok_iff`).
-/

namespace CallRouting.Text.Utf8

/-! ## Lead bytes -/

/-- The number of a byte. -/
theorem toNat_ofNat_of_lt {n : Nat} (h : n < 256) : (UInt8.ofNat n).toNat = n := by
  rw [UInt8.toNat_ofNat']
  exact Nat.mod_eq_of_lt h

/-- A byte is the one of its number. -/
theorem eq_ofNat {b : UInt8} {n : Nat} (h : b.toNat = n) : b = UInt8.ofNat n := by
  rw [← h, UInt8.ofNat_toNat]

/-- The lead byte of two. -/
theorem lead?_two {n : Nat} (hlow : 2 ≤ n) (hhigh : n < 32) :
    lead? (UInt8.ofNat (n + 192)) = some ⟨n, 1, 0x80, 0xBF⟩ := by
  unfold lead?
  rw [toNat_ofNat_of_lt (by omega)]
  dsimp only
  rw [if_neg (by omega), if_pos (by omega), Nat.add_sub_cancel]

/-- The lead byte of three. -/
theorem lead?_three {n : Nat} (h : n < 16) :
    lead? (UInt8.ofNat (n + 224)) =
      some ⟨n, 2, if n = 0 then 0xA0 else 0x80, if n = 13 then 0x9F else 0xBF⟩ := by
  unfold lead?
  rw [toNat_ofNat_of_lt (by omega)]
  dsimp only
  rw [if_neg (by omega), if_neg (by omega)]
  by_cases hzero : n = 0
  · subst hzero
    rfl
  by_cases hsurrogates : n = 13
  · subst hsurrogates
    rfl
  rw [if_neg (by omega), if_neg (by omega), if_pos (by omega), if_neg hzero, if_neg hsurrogates,
    Nat.add_sub_cancel]

/-- The lead byte of four. -/
theorem lead?_four {n : Nat} (h : n < 5) :
    lead? (UInt8.ofNat (n + 240)) =
      some ⟨n, 3, if n = 0 then 0x90 else 0x80, if n = 4 then 0x8F else 0xBF⟩ := by
  rcases n with _ | _ | _ | _ | _ | n
  iterate 5 rfl
  omega

/-- **A lead byte announces one, two or three bytes.** -/
theorem lead?_cases {b : UInt8} {l : Lead} (h : lead? b = some l) :
    (∃ n, 2 ≤ n ∧ n < 32 ∧ b = UInt8.ofNat (n + 192)) ∨
      (∃ n, n < 16 ∧ b = UInt8.ofNat (n + 224)) ∨ ∃ n, n < 5 ∧ b = UInt8.ofNat (n + 240) := by
  have hlow : 0xC2 ≤ b.toNat := by
    by_contra hlow
    rw [lead?, if_pos (by omega)] at h
    cases h
  have hhigh : b.toNat < 0xF5 := by
    by_contra hhigh
    unfold lead? at h
    dsimp only at h
    rw [if_neg (by omega), if_neg (by omega), if_neg (by omega), if_neg (by omega),
      if_neg (by omega), if_neg (by omega), if_neg (by omega), if_neg (by omega)] at h
    cases h
  by_cases htwo : b.toNat < 0xE0
  · exact Or.inl ⟨b.toNat - 192, by omega, by omega, eq_ofNat (by omega)⟩
  by_cases hthree : b.toNat < 0xF0
  · exact Or.inr (Or.inl ⟨b.toNat - 224, by omega, eq_ofNat (by omega)⟩)
  · exact Or.inr (Or.inr ⟨b.toNat - 240, by omega, eq_ofNat (by omega)⟩)

/-! ## Bytes that follow -/

/-- Whether a byte may follow, by its digit. -/
theorem within_iff {m : Nat} (h : m < 64) (low high : UInt8) :
    (UInt8.ofNat (m + 128) < low || high < UInt8.ofNat (m + 128)) = false ↔
      low.toNat ≤ m + 128 ∧ m + 128 ≤ high.toNat := by
  rw [Bool.or_eq_false_iff, decide_eq_false_iff_not, decide_eq_false_iff_not,
    UInt8.lt_iff_toNat_lt, UInt8.lt_iff_toNat_lt, toNat_ofNat_of_lt (by omega)]
  omega

variable {lead : UInt8} {start taken owed : Nat} {low high : UInt8} {value pos m : Nat}
  {bytes rest : List UInt8} {cs : List Char}

/-- The last byte of a character. -/
theorem decodeFrom_last (hm : m < 64) (hlow : low.toNat ≤ m + 128) (hhigh : m + 128 ≤ high.toNat) :
    decodeFrom (.inside lead start taken 1 low high value) pos (UInt8.ofNat (m + 128) :: rest) =
      (Char.ofNat (value * 64 + m) :: ·) <$> decodeFrom .between (pos + 1) rest := by
  rw [decodeFrom, (within_iff hm low high).mpr ⟨hlow, hhigh⟩, toNat_ofNat_of_lt (by omega)]
  simp

/-- A byte that is not the last one of a character. -/
theorem decodeFrom_more (hm : m < 64) (hlow : low.toNat ≤ m + 128) (hhigh : m + 128 ≤ high.toNat) :
    decodeFrom (.inside lead start taken (owed + 2) low high value) pos
        (UInt8.ofNat (m + 128) :: rest) =
      decodeFrom (.inside lead start (taken + 1) (owed + 1) 0x80 0xBF (value * 64 + m)) (pos + 1)
        rest := by
  rw [decodeFrom, (within_iff hm low high).mpr ⟨hlow, hhigh⟩, toNat_ofNat_of_lt (by omega)]
  simp

/-- Inside a character there has to be a byte that may follow. -/
theorem exists_follow (hlow : 0x80 ≤ low.toNat) (hhigh : high.toNat ≤ 0xBF)
    (h : decodeFrom (.inside lead start taken owed low high value) pos bytes = .ok cs) :
    ∃ m rest, m < 64 ∧ low.toNat ≤ m + 128 ∧ m + 128 ≤ high.toNat ∧
      bytes = UInt8.ofNat (m + 128) :: rest := by
  cases bytes with
  | nil => cases h
  | cons b rest =>
    have hwithin : (b < low || high < b) = false := by
      by_contra hout
      rw [decodeFrom, if_pos (Bool.of_not_eq_false hout)] at h
      cases h
    rw [Bool.or_eq_false_iff, decide_eq_false_iff_not, decide_eq_false_iff_not,
      UInt8.lt_iff_toNat_lt, UInt8.lt_iff_toNat_lt] at hwithin
    have hb : b = UInt8.ofNat (b.toNat - 128 + 128) := eq_ofNat (by omega)
    exact ⟨b.toNat - 128, rest, by omega, by omega, by omega, by rw [← hb]⟩

/-! ## Forms -/

/-- The forms of characters. -/
inductive Form : Char → List UInt8 → Prop
  | one {n : Nat} (h : n < 128) : Form (Char.ofNat n) [UInt8.ofNat n]
  | two {n m : Nat} (hlow : 2 ≤ n) (hn : n < 32) (hm : m < 64) :
      Form (Char.ofNat (n * 64 + m)) [UInt8.ofNat (n + 192), UInt8.ofNat (m + 128)]
  | three {n m k : Nat} (hn : n < 16) (hm : m < 64) (hk : k < 64) (hlow : n = 0 → 32 ≤ m)
      (hhigh : n = 13 → m < 32) :
      Form (Char.ofNat ((n * 64 + m) * 64 + k))
        [UInt8.ofNat (n + 224), UInt8.ofNat (m + 128), UInt8.ofNat (k + 128)]
  | four {n m k j : Nat} (hn : n < 5) (hm : m < 64) (hk : k < 64) (hj : j < 64)
      (hlow : n = 0 → 16 ≤ m) (hhigh : n = 4 → m < 16) :
      Form (Char.ofNat (((n * 64 + m) * 64 + k) * 64 + j))
        [UInt8.ofNat (n + 240), UInt8.ofNat (m + 128), UInt8.ofNat (k + 128), UInt8.ofNat (j + 128)]

/-- The code point of the character that has it. -/
theorem toNat_ofNat_char {v : Nat} (h : v < 0xD800 ∨ 0xDFFF < v ∧ v < 0x110000) :
    (Char.ofNat v).val.toNat = v := by
  unfold Char.ofNat
  rw [dif_pos (show v.isValidChar from h)]
  rfl

/-- A form is what its character is written as. -/
theorem Form.eq_encode {c : Char} {form : List UInt8} (h : Form c form) :
    form = String.utf8EncodeChar c := by
  cases h with
  | @one n h =>
    rw [String.utf8EncodeChar, toNat_ofNat_char (by omega), if_pos (by omega)]
  | @two n m hlow hn hm =>
    have hfirst : (n * 64 + m) / 64 % 32 = n := by omega
    have hsecond : (n * 64 + m) % 64 = m := by omega
    rw [String.utf8EncodeChar, toNat_ofNat_char (by omega), if_neg (by omega), if_pos (by omega),
      hfirst, hsecond]
  | @three n m k hn hm hk hlow hhigh =>
    have hfirst : ((n * 64 + m) * 64 + k) / 4096 % 16 = n := by omega
    have hsecond : ((n * 64 + m) * 64 + k) / 64 % 64 = m := by omega
    have hthird : ((n * 64 + m) * 64 + k) % 64 = k := by omega
    rw [String.utf8EncodeChar, toNat_ofNat_char (by omega), if_neg (by omega), if_neg (by omega),
      if_pos (by omega), hfirst, hsecond, hthird]
  | @four n m k j hn hm hk hj hlow hhigh =>
    have hfirst : (((n * 64 + m) * 64 + k) * 64 + j) / 262144 % 8 = n := by omega
    have hsecond : (((n * 64 + m) * 64 + k) * 64 + j) / 4096 % 64 = m := by omega
    have hthird : (((n * 64 + m) * 64 + k) * 64 + j) / 64 % 64 = k := by omega
    have hfourth : (((n * 64 + m) * 64 + k) * 64 + j) % 64 = j := by omega
    rw [String.utf8EncodeChar, toNat_ofNat_char (by omega), if_neg (by omega), if_neg (by omega),
      if_neg (by omega), hfirst, hsecond, hthird, hfourth]

/-- Every character has a form. -/
theorem exists_form_of_char (c : Char) : ∃ form, Form c form := by
  have hvalid : c.val.toNat < 0xD800 ∨ 0xDFFF < c.val.toNat ∧ c.val.toNat < 0x110000 := c.valid
  rw [← Char.ofNat_toNat c]
  change c.toNat < 0xD800 ∨ 0xDFFF < c.toNat ∧ c.toNat < 0x110000 at hvalid
  generalize c.toNat = v at hvalid
  by_cases hone : v < 0x80
  · exact ⟨_, .one hone⟩
  by_cases htwo : v < 0x800
  · have hv : v = v / 64 * 64 + v % 64 := by omega
    rw [hv]
    exact ⟨_, .two (by omega) (by omega) (by omega)⟩
  by_cases hthree : v < 0x10000
  · have hv : v = (v / 4096 * 64 + v / 64 % 64) * 64 + v % 64 := by omega
    rw [hv]
    exact ⟨_, .three (by omega) (by omega) (by omega) (by omega) (by omega)⟩
  · have hv : v = ((v / 262144 * 64 + v / 4096 % 64) * 64 + v / 64 % 64) * 64 + v % 64 := by omega
    rw [hv]
    exact ⟨_, .four (by omega) (by omega) (by omega) (by omega) (by omega) (by omega)⟩

/-- **A form is what its character is written as.** -/
theorem form_iff {c : Char} {form : List UInt8} :
    Form c form ↔ form = String.utf8EncodeChar c := by
  constructor
  · exact Form.eq_encode
  · rintro rfl
    obtain ⟨form, h⟩ := exists_form_of_char c
    rwa [← h.eq_encode]

/-! ## Reading -/

/-- A lead byte starts a character. -/
theorem decodeFrom_lead {b : UInt8} {l : Lead} (h : lead? b = some l) (pos : Nat)
    (rest : List UInt8) :
    decodeFrom .between pos (b :: rest) =
      decodeFrom (.inside b pos 1 l.follow l.low l.high l.payload) (pos + 1) rest := by
  have hlead : ¬ b < 0x80 := by
    intro hascii
    have hlt : b.toNat < 0x80 := hascii
    rw [lead?, if_pos (by omega)] at h
    cases h
  rw [decodeFrom, if_neg hlead, h]

/-- A digit is not greater than any may be. -/
theorem le_digit {m : Nat} (hm : m < 64) : m + 128 ≤ (0xBF : UInt8).toNat := by
  change m + 128 ≤ 191
  omega

/-- The least byte that may follow is no less than any may be. -/
theorem least_le (p : Prop) [Decidable p] {low : UInt8} (h : 0x80 ≤ low.toNat) :
    0x80 ≤ (if p then low else 0x80).toNat := by
  split_ifs
  · exact h
  · exact Nat.le_refl _

/-- The greatest byte that may follow is no greater than any may be. -/
theorem greatest_le (p : Prop) [Decidable p] {high : UInt8} (h : high.toNat ≤ 0xBF) :
    (if p then high else 0xBF).toNat ≤ 0xBF := by
  split_ifs
  · exact h
  · exact Nat.le_refl _

/-- The least byte that may follow, by its digit. -/
theorem least_le_iff {p : Prop} [Decidable p] {low : UInt8} {m : Nat} :
    (if p then low else 0x80).toNat ≤ m + 128 ↔ (p → low.toNat ≤ m + 128) := by
  split_ifs with hp
  · exact ⟨fun h _ => h, fun h => h hp⟩
  · exact ⟨fun _ h => absurd h hp, fun _ => Nat.le_add_left 128 m⟩

/-- The greatest byte that may follow, by its digit. -/
theorem le_greatest_iff {p : Prop} [Decidable p] {high : UInt8} {m : Nat} (hm : m < 64) :
    m + 128 ≤ (if p then high else 0xBF).toNat ↔ (p → m + 128 ≤ high.toNat) := by
  split_ifs with hp
  · exact ⟨fun h _ => h, fun h => h hp⟩
  · exact ⟨fun _ h => absurd h hp, fun _ => le_digit hm⟩

/-- Reading goes on behind a form. -/
theorem decodeFrom_form {c : Char} {form : List UInt8} (h : Form c form) (pos : Nat)
    (rest : List UInt8) :
    decodeFrom .between pos (form ++ rest) =
      (c :: ·) <$> decodeFrom .between (pos + form.length) rest := by
  have hlow : ∀ m : Nat, (0x80 : UInt8).toNat ≤ m + 128 := Nat.le_add_left 128
  cases h with
  | @one n h =>
    have hascii : UInt8.ofNat n < 0x80 := by
      rw [UInt8.lt_iff_toNat_lt, toNat_ofNat_of_lt (by omega)]
      exact h
    rw [List.singleton_append, decodeFrom, if_pos hascii, toNat_ofNat_of_lt (by omega)]
    rfl
  | @two n m hleast hn hm =>
    rw [List.cons_append, List.singleton_append, decodeFrom_lead (lead?_two hleast hn),
      decodeFrom_last hm (hlow m) (le_digit hm)]
    rfl
  | @three n m k hn hm hk hleast hmost =>
    have hleast' : n = 0 → (0xA0 : UInt8).toNat ≤ m + 128 := fun hzero =>
      Nat.add_le_add_right (hleast hzero) 128
    have hmost' : n = 13 → m + 128 ≤ (0x9F : UInt8).toNat := fun hlast =>
      Nat.add_le_add_right (Nat.le_of_lt_succ (hmost hlast)) 128
    rw [List.cons_append, List.cons_append, List.singleton_append,
      decodeFrom_lead (lead?_three hn),
      decodeFrom_more hm (least_le_iff.mpr hleast') ((le_greatest_iff hm).mpr hmost'),
      decodeFrom_last hk (hlow k) (le_digit hk)]
    rfl
  | @four n m k j hn hm hk hj hleast hmost =>
    have hleast' : n = 0 → (0x90 : UInt8).toNat ≤ m + 128 := fun hzero =>
      Nat.add_le_add_right (hleast hzero) 128
    have hmost' : n = 4 → m + 128 ≤ (0x8F : UInt8).toNat := fun hlast =>
      Nat.add_le_add_right (Nat.le_of_lt_succ (hmost hlast)) 128
    rw [List.cons_append, List.cons_append, List.cons_append, List.singleton_append,
      decodeFrom_lead (lead?_four hn),
      decodeFrom_more hm (least_le_iff.mpr hleast') ((le_greatest_iff hm).mpr hmost'),
      decodeFrom_more hk (hlow k) (le_digit hk), decodeFrom_last hj (hlow j) (le_digit hj)]
    rfl

/-- **What is read starts with a form**, and the rest is read behind it. -/
theorem exists_form {b : UInt8} {bytes : List UInt8} {pos : Nat} {cs : List Char}
    (h : decodeFrom .between pos (b :: bytes) = .ok cs) :
    ∃ c form rest, Form c form ∧ b :: bytes = form ++ rest := by
  by_cases hascii : b < 0x80
  · have hlt : b.toNat < 0x80 := hascii
    exact ⟨_, _, bytes, .one hlt, by rw [UInt8.ofNat_toNat]; rfl⟩
  rw [decodeFrom, if_neg hascii] at h
  cases hlead : lead? b with
  | none =>
    rw [hlead] at h
    cases h
  | some l =>
    rw [hlead] at h
    dsimp only at h
    rcases lead?_cases hlead with ⟨n, hleast, hn, rfl⟩ | ⟨n, hn, rfl⟩ | ⟨n, hn, rfl⟩
    · obtain rfl : _ = l := Option.some.inj ((lead?_two hleast hn).symm.trans hlead)
      obtain ⟨m, rest, hm, -, -, rfl⟩ := exists_follow (Nat.le_refl _) (Nat.le_refl _) h
      exact ⟨_, _, rest, .two hleast hn hm, rfl⟩
    · obtain rfl : _ = l := Option.some.inj ((lead?_three hn).symm.trans hlead)
      obtain ⟨m, rest, hm, hleast, hmost, rfl⟩ :=
        exists_follow (least_le (n = 0) (by decide)) (greatest_le (n = 13) (by decide)) h
      rw [decodeFrom_more hm hleast hmost] at h
      obtain ⟨k, rest, hk, -, -, rfl⟩ := exists_follow (Nat.le_refl _) (Nat.le_refl _) h
      refine ⟨_, _, rest, .three hn hm hk (fun hzero => ?_) (fun hlast => ?_), rfl⟩
      · have hbound : 160 ≤ m + 128 := least_le_iff.mp hleast hzero
        omega
      · have hbound : m + 128 ≤ 159 := (le_greatest_iff hm).mp hmost hlast
        omega
    · obtain rfl : _ = l := Option.some.inj ((lead?_four hn).symm.trans hlead)
      obtain ⟨m, rest, hm, hleast, hmost, rfl⟩ :=
        exists_follow (least_le (n = 0) (by decide)) (greatest_le (n = 4) (by decide)) h
      rw [decodeFrom_more hm hleast hmost] at h
      obtain ⟨k, rest, hk, hleast', hmost', rfl⟩ :=
        exists_follow (Nat.le_refl _) (Nat.le_refl _) h
      rw [decodeFrom_more hk hleast' hmost'] at h
      obtain ⟨j, rest, hj, -, -, rfl⟩ := exists_follow (Nat.le_refl _) (Nat.le_refl _) h
      refine ⟨_, _, rest, .four hn hm hk hj (fun hzero => ?_) (fun hlast => ?_), rfl⟩
      · have hbound : 144 ≤ m + 128 := least_le_iff.mp hleast hzero
        omega
      · have hbound : m + 128 ≤ 143 := (le_greatest_iff hm).mp hmost hlast
        omega

/-- Changing an answer does not change whether there is one. -/
theorem exists_of_map_eq_ok {ε α β : Type} {g : α → β} {x : Except ε α} {b : β}
    (h : g <$> x = .ok b) : ∃ a, x = .ok a ∧ g a = b := by
  cases x with
  | error e => cases h
  | ok a => exact ⟨a, rfl, Except.ok.inj h⟩

/-- **Bytes are read as characters exactly if they are the forms of these characters**, wherever
they stand. -/
theorem decodeFrom_eq_ok_iff {pos : Nat} {bytes : List UInt8} {cs : List Char} :
    decodeFrom .between pos bytes = .ok cs ↔ bytes = cs.flatMap String.utf8EncodeChar := by
  constructor
  · intro h
    induction hlength : bytes.length using Nat.strongRecOn generalizing bytes pos cs with
    | ind length ih =>
      cases bytes with
      | nil =>
        cases h
        rfl
      | cons b bytes =>
        obtain ⟨c, form, rest, hform, hbytes⟩ := exists_form h
        rw [hbytes, decodeFrom_form hform] at h
        obtain ⟨cs, hrest, rfl⟩ := exists_of_map_eq_ok h
        have hshorter : rest.length < length := by
          rw [← hlength, hbytes, List.length_append]
          have hpos : 0 < form.length := by cases hform <;> exact Nat.succ_pos _
          omega
        rw [hbytes, List.flatMap_cons, ← form_iff.mp hform, ← ih _ hshorter hrest rfl]
  · rintro rfl
    induction cs generalizing pos with
    | nil => rfl
    | cons c cs ih =>
      rw [List.flatMap_cons, decodeFrom_form (form_iff.mpr rfl), ih]
      rfl

/-- **Bytes are read as a text exactly if they are its UTF-8 form.** -/
theorem decode_eq_ok_iff {bytes : List UInt8} {text : String} :
    decode bytes = .ok text ↔ bytes = text.toList.flatMap String.utf8EncodeChar := by
  rw [← @decodeFrom_eq_ok_iff 0, decode]
  constructor
  · intro h
    obtain ⟨cs, hcs, rfl⟩ := exists_of_map_eq_ok h
    rw [hcs, String.toList_ofList]
  · intro h
    rw [h]
    exact congrArg Except.ok String.ofList_toList

end CallRouting.Text.Utf8
