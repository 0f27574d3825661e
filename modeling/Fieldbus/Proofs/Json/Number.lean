import Fieldbus.Json.Schema
import Fieldbus.Proofs.Json.Grammar

/-!
# Reading numbers

`skipNumber` passes over what has the form of a number, and `readNumber` gives an integer exactly
for plain digits that fit in 64 bits: `readUnsigned` therefore reads plain digits within its bound
and nothing else.
-/

namespace Fieldbus.Json

variable {rest s digits fraction exponent : List Char} {c : Char}

/-! ## Digits and signs -/

/-- Digits in front of this text end here. -/
def NoDigit (s : List Char) : Prop :=
  ∀ c rest, s = c :: rest → isDigit c = false

theorem Ends.noDigit (h : Ends s) : NoDigit s :=
  fun c rest hs => (h c rest hs).1

theorem readDigits_eq (s : List Char) :
    s = (readDigits s).value ++ (readDigits s).rest ∧
      ∀ c ∈ (readDigits s).value, isDigit c = true :=
  ⟨List.takeWhile_append_dropWhile.symm, fun c hc => List.all_eq_true.mp List.all_takeWhile c hc⟩

theorem readDigits_append (hdigits : ∀ c ∈ digits, isDigit c = true) (hrest : NoDigit rest) :
    (readDigits (digits ++ rest)).value = digits ∧ (readDigits (digits ++ rest)).rest = rest := by
  have hnone : rest.takeWhile isDigit = [] ∧ rest.dropWhile isDigit = rest := by
    cases rest with
    | nil => exact ⟨rfl, rfl⟩
    | cons c rest =>
      have hc : ¬ isDigit c = true := by simp [hrest c rest rfl]
      exact ⟨List.takeWhile_cons_of_neg hc, List.dropWhile_cons_of_neg hc⟩
  refine ⟨?_, ?_⟩
  · refine (List.takeWhile_append_of_pos hdigits).trans ?_
    rw [hnone.1, List.append_nil]
  · exact (List.dropWhile_append_of_pos hdigits).trans hnone.2

theorem readSign_eq (s : List Char) :
    ∃ sign, s = sign ++ (readSign s).rest ∧ (sign = [] ∨ sign = ['+'] ∨ sign = ['-']) := by
  unfold readSign
  split
  · exact ⟨['+'], rfl, Or.inr (Or.inl rfl)⟩
  · exact ⟨['-'], rfl, Or.inr (Or.inr rfl)⟩
  · exact ⟨[], rfl, Or.inl rfl⟩

theorem readSign_append {sign : List Char} (hsign : sign = [] ∨ sign = ['+'] ∨ sign = ['-'])
    (hdigits : Digits digits) (rest : List Char) :
    (readSign (sign ++ (digits ++ rest))).rest = digits ++ rest := by
  rcases hsign with rfl | rfl | rfl
  · rcases hdigits with ⟨hne, hdigits⟩
    cases digits with
    | nil => exact absurd rfl hne
    | cons c digits =>
      -- The first digit is not taken for a sign.
      have hc := hdigits c List.mem_cons_self
      simp only [List.nil_append, List.cons_append]
      rw [readSign]
      · intro _ heq
        rw [(List.cons.inj heq).1] at hc
        exact absurd hc (by decide)
      · intro _ heq
        rw [(List.cons.inj heq).1] at hc
        exact absurd hc (by decide)
  · rfl
  · rfl

/-! ## Form -/

theorem exponent_of_digits {letter : Char} (hletter : letter = 'e' ∨ letter = 'E')
    (hdigits : (readDigits (readSign s).rest).value ≠ []) :
    ∃ text, Exponent (letter :: text) ∧ s = text ++ (readDigits (readSign s).rest).rest := by
  rcases readSign_eq s with ⟨sign, hs, hsign⟩
  rcases readDigits_eq (readSign s).rest with ⟨hrest, hall⟩
  refine ⟨_, .some hletter hsign ⟨hdigits, hall⟩, ?_⟩
  rw [List.append_assoc, ← hrest, ← hs]

theorem of_skipExponent {letter : Char} (hletter : letter = 'e' ∨ letter = 'E')
    (h : Yields (skipExponent s) () rest) :
    ∃ text, Exponent (letter :: text) ∧ s = text ++ rest := by
  unfold skipExponent at h
  dsimp only at h
  split at h
  · exact absurd h not_yields_error
  · rename_i hdigits
    rcases yields_ok.mp h with ⟨-, rfl⟩
    exact exponent_of_digits hletter hdigits

/-- A fraction and an exponent stand in front of the text. -/
def Scale (s rest fraction exponent : List Char) : Prop :=
  s = fraction ++ (exponent ++ rest) ∧ Fraction fraction ∧ Exponent exponent

theorem of_skipScale (h : Yields (skipScale s) () rest) :
    ∃ fraction exponent, Scale s rest fraction exponent := by
  unfold skipScale at h
  split at h
  · rename_i s
    dsimp only at h
    split at h
    · exact absurd h not_yields_error
    · rename_i hdigits
      rcases readDigits_eq s with ⟨hs, hall⟩
      have hfraction : Fraction ('.' :: (readDigits s).value) := .some ⟨hdigits, hall⟩
      split at h
      · rename_i hrest
        rcases of_skipExponent (Or.inl rfl) (yields_widen.mp h) with ⟨text, hexponent, rfl⟩
        refine ⟨_, _, ?_, hfraction, hexponent⟩
        rw [List.cons_append, List.cons_append, ← hrest, ← hs]
      · rename_i hrest
        rcases of_skipExponent (Or.inr rfl) (yields_widen.mp h) with ⟨text, hexponent, rfl⟩
        refine ⟨_, _, ?_, hfraction, hexponent⟩
        rw [List.cons_append, List.cons_append, ← hrest, ← hs]
      · rcases yields_ok.mp h with ⟨-, rfl⟩
        refine ⟨_, _, ?_, hfraction, .none⟩
        rw [List.cons_append, List.nil_append, ← hs]
  · rcases of_skipExponent (Or.inl rfl) (yields_widen.mp h) with ⟨text, hexponent, rfl⟩
    exact ⟨_, _, rfl, .none, hexponent⟩
  · rcases of_skipExponent (Or.inr rfl) (yields_widen.mp h) with ⟨text, hexponent, rfl⟩
    exact ⟨_, _, rfl, .none, hexponent⟩
  · rcases yields_ok.mp h with ⟨-, rfl⟩
    exact ⟨_, _, rfl, .none, .none⟩

theorem skipExponent_of {letter : Char} {text : List Char} (h : Exponent (letter :: text))
    (hends : Ends rest) : Yields (skipExponent (text ++ rest)) () rest := by
  cases h with
  | some _ hsign hdigits =>
    have hread := readSign_append hsign hdigits rest
    rcases readDigits_append hdigits.2 hends.noDigit with ⟨hvalue, hrest⟩
    rw [List.append_assoc]
    unfold skipExponent
    dsimp only
    rw [← hread] at hvalue hrest
    have hsome : ¬ (readDigits (readSign _).rest).value = [] :=
      fun h => hdigits.1 (hvalue.symm.trans h)
    rw [if_neg hsome]
    exact yields_ok.mpr ⟨rfl, hrest⟩

theorem noDigit_scale (hfraction : Fraction fraction) (hexponent : Exponent exponent)
    (hends : Ends rest) : NoDigit (fraction ++ (exponent ++ rest)) := by
  cases hfraction with
  | none =>
    cases hexponent with
    | none => exact hends.noDigit
    | some hletter =>
      rintro c s ⟨⟩
      rcases hletter with rfl | rfl <;> decide
  | some =>
    rintro c s ⟨⟩
    decide

/-- A text that begins with the letter of an exponent begins with an exponent. -/
theorem exponent_of_letter {letter : Char} (hletter : letter = 'e' ∨ letter = 'E')
    (hexponent : Exponent exponent) (hends : Ends rest)
    (h : exponent ++ rest = letter :: s) :
    ∃ text, s = text ++ rest ∧ Exponent (letter :: text) := by
  cases hexponent with
  | none =>
    have hnot := hends letter s h
    rcases hletter with rfl | rfl
    · exact absurd rfl hnot.2.2.1
    · exact absurd rfl hnot.2.2.2
  | some hletter' hsign hdigits =>
    cases h
    exact ⟨_, rfl, .some hletter' hsign hdigits⟩

theorem skipScale_of (hfraction : Fraction fraction) (hexponent : Exponent exponent)
    (hends : Ends rest) : Yields (skipScale (fraction ++ (exponent ++ rest))) () rest := by
  have hbehind : NoDigit (exponent ++ rest) := noDigit_scale .none hexponent hends
  cases hfraction with
  | none =>
    rw [List.nil_append]
    cases hexponent with
    | none =>
      rw [List.nil_append]
      unfold skipScale
      split
      · exact absurd rfl (hends _ _ rfl).2.1
      · exact absurd rfl (hends _ _ rfl).2.2.1
      · exact absurd rfl (hends _ _ rfl).2.2.2
      · exact yields_ok.mpr ⟨rfl, rfl⟩
    | some hletter hsign hdigits =>
      have hskip := skipExponent_of (.some hletter hsign hdigits) hends
      rcases hletter with rfl | rfl
      · exact yields_widen.mpr hskip
      · exact yields_widen.mpr hskip
  | some hdigits =>
    rcases readDigits_append hdigits.2 hbehind with ⟨hvalue, hrest⟩
    rw [List.cons_append, skipScale, if_neg fun h => hdigits.1 (hvalue.symm.trans h)]
    split
    · rename_i heq
      rcases exponent_of_letter (Or.inl rfl) hexponent hends (hrest.symm.trans heq)
        with ⟨text, rfl, hletter⟩
      exact yields_widen.mpr (skipExponent_of hletter hends)
    · rename_i heq
      rcases exponent_of_letter (Or.inr rfl) hexponent hends (hrest.symm.trans heq)
        with ⟨text, rfl, hletter⟩
      exact yields_widen.mpr (skipExponent_of hletter hends)
    · -- No letter follows, so that there is no exponent.
      rename_i hlower hupper
      cases hexponent with
      | none => exact yields_ok.mpr ⟨rfl, hrest⟩
      | some hletter =>
        rcases hletter with rfl | rfl
        · exact absurd hrest (hlower _)
        · exact absurd hrest (hupper _)

theorem of_skipNumber (h : Yields (skipNumber s) () rest) :
    ∃ whole fraction exponent, s = whole ++ (fraction ++ (exponent ++ rest)) ∧ Whole whole ∧
      Fraction fraction ∧ Exponent exponent := by
  unfold skipNumber at h
  split at h
  · exact absurd h not_yields_error
  · split at h
    · rcases of_skipScale (yields_widen.mp h) with ⟨fraction, exponent, rfl, hscale⟩
      exact ⟨['0'], fraction, exponent, rfl, .zero, hscale⟩
    · exact absurd h not_yields_error
  · rename_i c s hzero
    split at h
    · rename_i hc
      rcases readDigits_eq s with ⟨hs, hall⟩
      rcases of_skipScale (yields_widen.mp h) with ⟨fraction, exponent, hrest, hscale⟩
      refine ⟨c :: (readDigits s).value, fraction, exponent, ?_, .digits ?_ ⟨?_, ?_⟩, hscale⟩
      · rw [List.cons_append, ← hrest, ← hs]
      · exact hzero
      · exact List.cons_ne_nil _ _
      · intro d hd
        rcases List.mem_cons.mp hd with rfl | hd
        · exact hc
        · exact hall d hd
    · exact absurd h not_yields_error

theorem skipNumber_of {n : Numeral} (hn : n.WellFormed) (hends : Ends rest) :
    Yields (skipNumber (n.magnitude ++ rest)) () rest := by
  have hscale := skipScale_of hn.fraction hn.exponent hends
  have hbehind := noDigit_scale hn.fraction hn.exponent hends
  have hwhole := hn.whole
  rw [Numeral.magnitude, List.append_assoc, List.append_assoc]
  generalize n.whole = whole at hwhole ⊢
  cases hwhole with
  | zero =>
    have hnone : (readDigits ([] ++ (n.fraction ++ (n.exponent ++ rest)))).value = [] :=
      (readDigits_append (fun d hd => absurd hd List.not_mem_nil) hbehind).1
    rw [List.nil_append] at hnone
    rw [List.singleton_append, skipNumber, if_pos hnone]
    exact yields_widen.mpr hscale
  | @digits c digits hc hdigits =>
    rcases readDigits_append (fun d hd => hdigits.2 d (List.mem_cons_of_mem _ hd)) hbehind
      with ⟨-, hrest⟩
    rw [List.cons_append, skipNumber]
    · rw [if_pos (hdigits.2 c List.mem_cons_self)]
      refine yields_widen.mpr ?_
      rw [hrest]
      exact hscale
    · exact fun h => hc h

/-! ## Values -/

/-- The value that digits give behind the value of those before. -/
def digitsValue (value : Nat) (digits : List Char) : Nat :=
  digits.foldl (fun value digit => value * 10 + digitValue digit) value

theorem le_digitsValue (digits : List Char) (value : Nat) : value ≤ digitsValue value digits := by
  induction digits generalizing value with
  | nil => exact Nat.le_refl _
  | cons d digits ih =>
    have hstep : value ≤ value * 10 + digitValue d := by omega
    exact Nat.le_trans hstep (ih _)

theorem pushWhole_of_fits {sig : Significand} {d : Char} (hroom : sig.room = true)
    (hle : sig.value * 10 + digitValue d ≤ maxSignificand) :
    sig.pushWhole d = { sig with value := sig.value * 10 + digitValue d } := by
  rw [Significand.pushWhole, if_pos (by simp [hroom, hle])]

theorem pushWhole_of_not_fits {sig : Significand} {d : Char}
    (h : ¬ (sig.room = true ∧ sig.value * 10 + digitValue d ≤ maxSignificand)) :
    sig.pushWhole d = { sig with exponent := sig.exponent + 1, room := false } := by
  rw [Significand.pushWhole, if_neg (by simpa using h)]

/-- Digits that fit are taken as they are. -/
theorem foldl_pushWhole (digits : List Char) {sig : Significand} (hroom : sig.room = true)
    (hle : digitsValue sig.value digits ≤ maxSignificand) :
    digits.foldl Significand.pushWhole sig =
      { sig with value := digitsValue sig.value digits } := by
  induction digits generalizing sig with
  | nil => rfl
  | cons d digits ih =>
    have hstep : sig.value * 10 + digitValue d ≤ maxSignificand :=
      Nat.le_trans (le_digitsValue digits _) hle
    rw [List.foldl_cons, pushWhole_of_fits hroom hstep]
    exact ih hroom hle

/-- A significand that still takes digits has taken only digits that fit. -/
theorem of_room_foldl_pushWhole (digits : List Char) {sig : Significand}
    (hsig : sig.value ≤ maxSignificand)
    (h : (digits.foldl Significand.pushWhole sig).room = true) :
    sig.room = true ∧ digitsValue sig.value digits ≤ maxSignificand := by
  induction digits generalizing sig with
  | nil => exact ⟨h, hsig⟩
  | cons d digits ih =>
    rw [List.foldl_cons] at h
    by_cases hfits : sig.room = true ∧ sig.value * 10 + digitValue d ≤ maxSignificand
    · rw [pushWhole_of_fits hfits.1 hfits.2] at h
      exact ih hfits.2 h
    · -- This digit closed the significand, and no digit behind it opens it again.
      let full : Significand := { sig with exponent := sig.exponent + 1, room := false }
      have hfull : full.value ≤ maxSignificand := hsig
      rw [pushWhole_of_not_fits hfits] at h
      cases (ih hfull h).1

/-! ## Integers -/

theorem makeFloat_ne_natural {negative : Bool} {significand : Nat} {exponent : Int}
    {value : UInt64} : makeFloat negative significand exponent rest ≠ .ok (.natural value) := by
  unfold makeFloat
  split <;> exact fun h => nomatch h

theorem scaled_ne_natural {negative down : Bool} {sig : Significand} {value : UInt64} :
    scaled negative sig down digits rest ≠ .ok (.natural value) := by
  unfold scaled
  split
  · exact makeFloat_ne_natural
  · split <;> exact fun h => nomatch h

theorem not_natural_readExponent {negative : Bool} {sig : Significand} {value : UInt64} :
    ¬ Yields (readExponent negative sig s) (.natural value) rest := by
  intro h
  unfold readExponent at h
  dsimp only at h
  split at h
  · exact not_yields_error h
  · rcases yields_bind.mp h with ⟨number, hnumber, h⟩
    rcases yields_pure.mp h with ⟨rfl, -⟩
    exact scaled_ne_natural hnumber

theorem unscaled_eq_natural {negative : Bool} {sig : Significand} {value : UInt64}
    (h : unscaled negative sig rest = .ok (.natural value)) :
    negative = false ∧ sig.room = true ∧ value = sig.value.toUInt64 := by
  unfold unscaled at h
  split at h
  · rename_i hroom
    split at h
    · rename_i hpositive
      cases h
      exact ⟨Bool.eq_false_iff.mpr hpositive, hroom, rfl⟩
    · split at h <;> cases h
  · exact absurd h makeFloat_ne_natural

/-- A number is an integer without a sign only when nothing follows its digits. -/
theorem natural_readScale {negative : Bool} {sig : Significand} {value : UInt64}
    (h : Yields (readScale negative sig s) (.natural value) rest) :
    s = rest ∧ negative = false ∧ sig.room = true ∧ value = sig.value.toUInt64 := by
  unfold readScale at h
  split at h
  · dsimp only at h
    split at h
    · exact absurd h not_yields_error
    · split at h
      · exact absurd (yields_widen.mp h) not_natural_readExponent
      · exact absurd (yields_widen.mp h) not_natural_readExponent
      · rcases yields_bind.mp h with ⟨number, hnumber, h⟩
        rcases yields_pure.mp h with ⟨rfl, -⟩
        exact absurd hnumber makeFloat_ne_natural
  · exact absurd (yields_widen.mp h) not_natural_readExponent
  · exact absurd (yields_widen.mp h) not_natural_readExponent
  · rcases yields_bind.mp h with ⟨number, hnumber, h⟩
    rcases yields_pure.mp h with ⟨rfl, rfl⟩
    exact ⟨rfl, unscaled_eq_natural hnumber⟩

theorem readScale_of_natural {sig : Significand} (hroom : sig.room = true) (hends : Ends rest) :
    Yields (readScale false sig rest) (.natural sig.value.toUInt64) rest := by
  have hunscaled : unscaled false sig rest = .ok (.natural sig.value.toUInt64) := by
    rw [unscaled, if_pos hroom, if_pos (by decide)]
  unfold readScale
  split
  · exact absurd rfl (hends _ _ rfl).2.1
  · exact absurd rfl (hends _ _ rfl).2.2.1
  · exact absurd rfl (hends _ _ rfl).2.2.2
  · exact yields_bind.mpr ⟨_, hunscaled, yields_pure.mpr ⟨rfl, rfl⟩⟩

theorem toNat_toUInt64 {value : Nat} (h : value ≤ maxSignificand) :
    value.toUInt64.toNat = value :=
  UInt64.toNat_ofNat_of_lt (Nat.lt_of_le_of_lt h (by decide))

/-- An integer without a sign is read from plain digits, which give its value. -/
theorem natural_readNumber {negative : Bool} {value : UInt64}
    (h : Yields (readNumber negative s) (.natural value) rest) :
    ∃ whole, s = whole ++ rest ∧ Whole whole ∧ negative = false ∧
      value.toNat = digitsValue 0 whole := by
  unfold readNumber at h
  split at h
  · exact absurd h not_yields_error
  · split at h
    · rcases natural_readScale (yields_widen.mp h) with ⟨rfl, hpositive, -, rfl⟩
      exact ⟨['0'], rfl, .zero, hpositive, rfl⟩
    · exact absurd h not_yields_error
  · rename_i c s hzero
    split at h
    · rename_i hc
      rcases readDigits_eq s with ⟨hs, hall⟩
      rcases natural_readScale (yields_widen.mp h) with ⟨hrest, hpositive, hroom, rfl⟩
      -- There is room left, so that no digit was dropped.
      have hsig : ({} : Significand).value ≤ maxSignificand := Nat.zero_le _
      have hle := (of_room_foldl_pushWhole _ hsig hroom).2
      refine ⟨c :: (readDigits s).value, ?_, .digits hzero ⟨List.cons_ne_nil _ _, ?_⟩,
        hpositive, ?_⟩
      · rw [List.cons_append, ← hrest, ← hs]
      · intro d hd
        rcases List.mem_cons.mp hd with rfl | hd
        · exact hc
        · exact hall d hd
      · rw [foldl_pushWhole _ rfl hle]
        exact toNat_toUInt64 hle
    · exact absurd h not_yields_error

theorem readNumber_of_whole {whole : List Char} (hwhole : Whole whole)
    (hle : digitsValue 0 whole ≤ maxSignificand) (hends : Ends rest) :
    Yields (readNumber false (whole ++ rest)) (.natural (digitsValue 0 whole).toUInt64) rest := by
  cases hwhole with
  | zero =>
    have hnone : (readDigits ([] ++ rest)).value = [] :=
      (readDigits_append (fun d hd => absurd hd List.not_mem_nil) hends.noDigit).1
    rw [List.nil_append] at hnone
    rw [List.singleton_append, readNumber, if_pos hnone]
    exact yields_widen.mpr (readScale_of_natural rfl hends)
  | @digits c digits hc hdigits =>
    rcases readDigits_append (fun d hd => hdigits.2 d (List.mem_cons_of_mem _ hd)) hends.noDigit
      with ⟨hvalue, hrest⟩
    have hsig : (c :: digits).foldl Significand.pushWhole {} =
        { value := digitsValue 0 (c :: digits) } := foldl_pushWhole (c :: digits) rfl hle
    rw [List.cons_append, readNumber]
    · rw [if_pos (hdigits.2 c List.mem_cons_self)]
      refine yields_widen.mpr ?_
      rw [hvalue, hrest, hsig]
      exact readScale_of_natural rfl hends
    · exact hc

theorem isDigit_of_whole {whole : List Char} (h : Whole whole) :
    ∃ c digits, whole = c :: digits ∧ isDigit c = true := by
  cases h with
  | zero => exact ⟨'0', [], rfl, by decide⟩
  | @digits c digits _ hdigits => exact ⟨c, digits, rfl, hdigits.2 c List.mem_cons_self⟩

theorem isBlank_of_isDigit (h : isDigit c = true) : isBlank c = false := by
  refine Bool.eq_false_iff.mpr fun hblank => ?_
  simp only [isBlank, Bool.or_eq_true, decide_eq_true_eq] at hblank
  rcases hblank with ((rfl | rfl) | rfl) | rfl <;> exact absurd h (by decide)

theorem yields_fit {expected : String} {bound n value : Nat} {taken : Taken n Number} :
    Yields (fit expected bound taken) value rest ↔
      ∃ natural : UInt64, taken.value = .natural natural ∧ natural.toNat ≤ bound ∧
        natural.toNat = value ∧ taken.rest = rest := by
  unfold fit
  split
  · rename_i natural hnatural
    split
    · rename_i hle
      rw [yields_ok]
      refine ⟨fun h => ⟨natural, hnatural, hle, h⟩, ?_⟩
      rintro ⟨natural', hnatural', -, h⟩
      cases hnatural.symm.trans hnatural'
      exact h
    · rename_i hle
      refine ⟨fun h => absurd h not_yields_error, ?_⟩
      rintro ⟨natural', hnatural', hle', -⟩
      cases hnatural.symm.trans hnatural'
      exact absurd hle' hle
  · rename_i hnegative
    refine ⟨fun h => absurd h not_yields_error, ?_⟩
    rintro ⟨natural', hnatural', -⟩
    cases hnegative.symm.trans hnatural'
  · rename_i hfloat
    refine ⟨fun h => absurd h not_yields_error, ?_⟩
    rintro ⟨natural', hnatural', -⟩
    cases hfloat.symm.trans hnatural'

/-- An integer is read from plain digits within its bound. -/
theorem of_readUnsigned {expected : String} {bound value : Nat}
    (h : Yields (readUnsigned expected bound s) value rest) :
    ∃ pre whole, Blanks pre ∧ s = pre ++ (whole ++ rest) ∧ Whole whole ∧
      digitsValue 0 whole = value ∧ value ≤ bound := by
  unfold readUnsigned at h
  rcases front_cases s with ⟨-, hfront⟩ | ⟨pre, c, r, _, hpre, -, rfl, hfront⟩
  · rw [hfront] at h
    exact absurd h not_yields_error
  · rw [hfront] at h
    split at h
    · exact absurd h not_yields_error
    · -- What is read behind a sign is never an integer without one.
      rcases yields_taken.mp h with ⟨number, behind, _, hnumber, h⟩
      rcases yields_fit.mp h with ⟨natural, hnatural, -⟩
      cases hnatural
      rcases natural_readNumber hnumber with ⟨-, -, -, hpositive, -⟩
      cases hpositive
    · split at h
      · rename_i _ heq _
        cases heq
        rcases yields_taken.mp h with ⟨number, behind, _, hnumber, h⟩
        rcases yields_fit.mp h with ⟨natural, hnatural, hle, rfl, rfl⟩
        cases hnatural
        rcases natural_readNumber hnumber with ⟨whole, hwhole, hform, -, hvalue⟩
        exact ⟨pre, whole, hpre, congrArg (pre ++ ·) hwhole, hform, hvalue.symm, hle⟩
      · exact absurd h not_yields_error

theorem readUnsigned_of_whole {expected : String} {bound : Nat} {pre whole : List Char}
    (hpre : Blanks pre) (hwhole : Whole whole) (hle : digitsValue 0 whole ≤ bound)
    (hbound : bound ≤ maxSignificand) (hends : Ends rest) :
    Yields (readUnsigned expected bound (pre ++ (whole ++ rest))) (digitsValue 0 whole) rest := by
  have hmax := Nat.le_trans hle hbound
  have hread := readNumber_of_whole hwhole hmax hends
  rcases isDigit_of_whole hwhole with ⟨c, digits, rfl, hc⟩
  rcases front_append hpre (isBlank_of_isDigit hc) (digits ++ rest) with ⟨_, hfront⟩
  unfold readUnsigned
  rw [List.cons_append, hfront]
  split
  · rename_i heq
    cases heq
  · rename_i heq
    cases heq
    exact absurd hc (by decide)
  · rename_i heq
    cases heq
    rw [if_pos hc]
    refine yields_taken.mpr ⟨_, rest, hread.length_lt, hread, ?_⟩
    exact yields_fit.mpr ⟨_, rfl, (toNat_toUInt64 hmax).symm ▸ hle, toNat_toUInt64 hmax, rfl⟩

end Fieldbus.Json
