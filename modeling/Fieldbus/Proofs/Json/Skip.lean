import Fieldbus.Json.Skip
import Fieldbus.Proofs.Json.Number
import Fieldbus.Proofs.Json.Text

/-!
# Passing over a value

`skipValue` passes over a value of any form and depth, and over nothing else.  `skipOpen` and
`skipClose` take turns on a stack of open frames; what they pass over together is the value and, for
each frame, what closes it.
-/

namespace Fieldbus.Json

variable {rest s : List Char}

/-! ## Keys -/

theorem yields_readColon :
    Yields (readColon s) () rest ↔ ∃ b, Blanks b ∧ s = b ++ ':' :: rest := by
  refine ⟨?_, ?_⟩
  · intro h
    unfold readColon at h
    rcases front_cases s with ⟨-, hfront⟩ | ⟨b, c, r, _, hb, -, rfl, hfront⟩
    · rw [hfront] at h
      exact absurd h not_yields_error
    · rw [hfront] at h
      split at h
      · exact absurd h not_yields_error
      · rename_i heq
        cases heq
        rcases yields_ok.mp h with ⟨-, rfl⟩
        exact ⟨b, hb, rfl⟩
      · exact absurd h not_yields_error
  · rintro ⟨b, hb, rfl⟩
    rcases front_append hb (by decide : isBlank ':' = false) rest with ⟨_, hfront⟩
    unfold readColon
    rw [hfront]
    exact yields_ok.mpr ⟨rfl, rfl⟩

theorem yields_skipKey :
    Yields (skipKey s) () rest ↔ ∃ b raw b', Blanks b ∧ TextForm raw ∧ Blanks b' ∧
      s = b ++ '"' :: (raw ++ '"' :: (b' ++ ':' :: rest)) := by
  refine ⟨?_, ?_⟩
  · intro h
    unfold skipKey at h
    rcases front_cases s with ⟨-, hfront⟩ | ⟨b, c, r, _, hb, -, rfl, hfront⟩
    · rw [hfront] at h
      exact absurd h not_yields_error
    · rw [hfront] at h
      split at h
      · exact absurd h not_yields_error
      · rename_i heq
        cases heq
        rcases yields_taken.mp h with ⟨_, behind, _, htext, h⟩
        rcases yields_skipText.mp htext with ⟨raw, rfl, hraw⟩
        rcases yields_readColon.mp (yields_widen.mp h) with ⟨b', hb', rfl⟩
        exact ⟨b, raw, b', hb, hraw, hb', rfl⟩
      · exact absurd h not_yields_error
  · rintro ⟨b, raw, b', hb, hraw, hb', rfl⟩
    have htext : Yields (skipText (raw ++ '"' :: (b' ++ ':' :: rest))) () (b' ++ ':' :: rest) :=
      yields_skipText.mpr ⟨raw, rfl, hraw⟩
    rcases front_append hb (by decide : isBlank '"' = false) (raw ++ '"' :: (b' ++ ':' :: rest))
      with ⟨_, hfront⟩
    unfold skipKey
    rw [hfront]
    exact yields_taken.mpr ⟨_, _, htext.length_lt, htext,
      yields_widen.mpr (yields_readColon.mpr ⟨b', hb', rfl⟩)⟩

/-! ## Scalars -/

/-- A value that is neither a list nor an object. -/
def Tree.IsScalar : Tree → Prop
  | .null | .flag _ | .number _ | .text _ => True
  | .list _ | .object _ => False

theorem of_skipScalar {c : Char} (h : Yields (skipScalar c s) () rest) :
    ∃ tree body, c :: s = body ++ rest ∧ Spelled (.value tree) body := by
  unfold skipScalar at h
  split at h
  · rw [yields_readWord.mp h]
    exact ⟨_, _, rfl, .null⟩
  · rw [yields_readWord.mp h]
    exact ⟨_, _, rfl, .isTrue⟩
  · rw [yields_readWord.mp h]
    exact ⟨_, _, rfl, .isFalse⟩
  · rcases of_skipNumber (yields_widen.mp h) with ⟨whole, fraction, exponent, rfl, hw, hf, he⟩
    refine ⟨_, _, ?_, .number (n := ⟨true, whole, fraction, exponent⟩) ⟨hw, hf, he⟩⟩
    simp [Numeral.text, Numeral.magnitude]
  · rcases yields_skipText.mp (yields_widen.mp h) with ⟨raw, rfl, hraw⟩
    refine ⟨_, _, ?_, .text hraw⟩
    simp
  · split at h
    · rcases of_skipNumber h with ⟨whole, fraction, exponent, hs, hw, hf, he⟩
      refine ⟨_, _, ?_, .number (n := ⟨false, whole, fraction, exponent⟩) ⟨hw, hf, he⟩⟩
      simp [Numeral.text, Numeral.magnitude, hs]
    · exact absurd h not_yields_error

/-! ## Open frames -/

/-- What may follow a value inside a frame, up to what closes it. -/
def Closing : Frame → List Char → Prop
  | .list, more => ∃ later, Spelled (.items later) more
  | .object, more => ∃ later, Spelled (.members later) more

/-- What is passed over from here is a value, and then what goes on with the frames around it. -/
def OpenSound (s : List Char) : Prop :=
  ∀ {bound : Nat} {frames : List Frame} {fits : s.length ≤ bound} {rest : List Char},
    Yields (skipOpen frames s fits) () rest →
      ∃ pre tree body tail, ∃ h : tail.length < bound, Blanks pre ∧ s = pre ++ (body ++ tail) ∧
        Spelled (.value tree) body ∧ Yields (skipClose frames tail h) () rest

/-- What is passed over from here closes the first frame, and then goes on with those around it. -/
def CloseSound (s : List Char) : Prop :=
  ∀ {bound : Nat} {frame : Frame} {outer : List Frame} {fits : s.length < bound}
    {rest : List Char}, Yields (skipClose (frame :: outer) s fits) () rest →
      ∃ more tail, ∃ h : tail.length < bound, s = more ++ tail ∧ Closing frame more ∧
        Yields (skipClose outer tail h) () rest

/-- The text and all that are shorter are passed over as they should be. -/
def SoundWithin (r : List Char) : Prop :=
  ∀ q : List Char, q.length ≤ r.length → OpenSound q ∧ CloseSound q

theorem SoundWithin.item {r : List Char} (ih : SoundWithin r) {bound : Nat} {outer : List Frame}
    {fits : r.length ≤ bound} (h : Yields (skipOpen (.list :: outer) r fits) () rest) :
    ∃ b tree body more later tail, ∃ h : tail.length < bound, Blanks b ∧
      r = b ++ (body ++ (more ++ tail)) ∧ Spelled (.value tree) body ∧
      Spelled (.items later) more ∧ Yields (skipClose outer tail h) () rest := by
  rcases (ih r (Nat.le_refl _)).1 h with ⟨b, tree, body, behind, _, hb, rfl, hbody, h⟩
  have hbehind : behind.length ≤ (b ++ (body ++ behind)).length := by
    simp only [List.length_append]
    omega
  rcases (ih behind hbehind).2 h with ⟨more, tail, hlt, rfl, ⟨later, hmore⟩, h⟩
  exact ⟨b, tree, body, more, later, tail, hlt, hb, rfl, hbody, hmore, h⟩

theorem SoundWithin.member {r behind : List Char} (ih : SoundWithin r) {bound : Nat}
    {outer : List Frame} {fits : behind.length ≤ bound} (hkey : Yields (skipKey r) () behind)
    (h : Yields (skipOpen (.object :: outer) behind fits) () rest) :
    ∃ b key tree body more later tail, ∃ h : tail.length < bound, Blanks b ∧
      r = b ++ (body ++ (more ++ tail)) ∧ Spelled (.member key tree) body ∧
      Spelled (.members later) more ∧ Yields (skipClose outer tail h) () rest := by
  have hshorter : behind.length < r.length := hkey.length_lt
  rcases yields_skipKey.mp hkey with ⟨b, raw, b₁, hb, hraw, hb₁, rfl⟩
  rcases (ih behind (Nat.le_of_lt hshorter)).1 h
    with ⟨b₂, tree, body, behind', _, hb₂, rfl, hbody, h⟩
  have hbehind' : behind'.length ≤ (b₂ ++ (body ++ behind')).length := by
    simp only [List.length_append]
    omega
  rcases (ih behind' (Nat.le_trans hbehind' (Nat.le_of_lt hshorter))).2 h
    with ⟨more, tail, hlt, rfl, ⟨later, hmore⟩, h⟩
  refine ⟨b, raw, tree, _, more, later, tail, hlt, hb, ?_, .member hraw hb₁ hb₂ hbody, hmore, h⟩
  simp

theorem openSound_of (ih : ∀ r, r.length < s.length → SoundWithin r) : OpenSound s := by
  intro bound frames fits rest h
  rw [skipOpen] at h
  rcases front_cases s with ⟨-, hfront⟩ | ⟨pre, c, r, hr, hpre, -, rfl, hfront⟩
  · rw [hfront] at h
    exact absurd h not_yields_error
  · rw [hfront] at h
    split at h
    · exact absurd h not_yields_error
    · rename_i heq
      cases heq
      rcases front_cases r with ⟨-, hinner⟩ | ⟨b, c', r', hr', hb, -, hs, hinner⟩
      · rw [hinner] at h
        exact absurd h not_yields_error
      · rw [hinner] at h
        split at h
        · exact absurd h not_yields_error
        · rename_i heq
          cases heq
          refine ⟨pre, _, _, r', _, hpre, ?_, .emptyList hb, h⟩
          simp [hs]
        · rename_i heq
          cases heq
          rcases (ih r hr).item h
            with ⟨b', tree, body, more, later, tail, hlt, hb', hs', hbody, hmore, h⟩
          refine ⟨pre, _, _, tail, hlt, hpre, ?_, .list hb' hbody hmore, h⟩
          simp [hs']
    · rename_i heq
      cases heq
      rcases front_cases r with ⟨-, hinner⟩ | ⟨b, c', r', hr', hb, -, hs, hinner⟩
      · rw [hinner] at h
        exact absurd h not_yields_error
      · rw [hinner] at h
        split at h
        · exact absurd h not_yields_error
        · rename_i heq
          cases heq
          refine ⟨pre, _, _, r', _, hpre, ?_, .emptyObject hb, h⟩
          simp [hs]
        · rename_i heq
          cases heq
          split at h
          · exact absurd h not_yields_error
          · rename_i hkey
            rcases (ih r hr).member ⟨_, hkey⟩ h
              with ⟨b', key, tree, body, more, later, tail, hlt, hb', hs', hbody, hmore, h⟩
            refine ⟨pre, _, _, tail, hlt, hpre, ?_, .object hb' hbody hmore, h⟩
            simp [hs']
    · rename_i heq
      cases heq
      split at h
      · exact absurd h not_yields_error
      · rename_i hscalar
        rcases of_skipScalar ⟨_, hscalar⟩ with ⟨tree, body, hs, hbody⟩
        exact ⟨pre, tree, body, _, _, hpre, congrArg (pre ++ ·) hs, hbody, h⟩

theorem closeSound_of (ih : ∀ r, r.length < s.length → SoundWithin r) : CloseSound s := by
  intro bound frame outer fits rest h
  rw [skipClose] at h
  rcases front_cases s with ⟨-, hfront⟩ | ⟨pre, c, r, hr, hpre, -, rfl, hfront⟩
  · rw [hfront] at h
    exact absurd h not_yields_error
  · rw [hfront] at h
    dsimp only at h
    split at h
    · rename_i hcomma
      subst hcomma
      split at h
      · rcases (ih r hr).item h
          with ⟨b, tree, body, more, later, tail, hlt, hb, rfl, hbody, hmore, h⟩
        refine ⟨_, tail, hlt, ?_, ⟨_, .items hpre hb hbody hmore⟩, h⟩
        simp
      · split at h
        · exact absurd h not_yields_error
        · rename_i hkey
          rcases (ih r hr).member ⟨_, hkey⟩ h
            with ⟨b, key, tree, body, more, later, tail, hlt, hb, rfl, hbody, hmore, h⟩
          refine ⟨_, tail, hlt, ?_, ⟨_, .members hpre hb hbody hmore⟩, h⟩
          simp
    · split at h
      · rename_i hcloser
        subst hcloser
        refine ⟨pre ++ [frame.closer], r, _, by simp, ?_, h⟩
        cases frame with
        | list => exact ⟨[], .noItems hpre⟩
        | object => exact ⟨[], .noMembers hpre⟩
      · exact absurd h not_yields_error

theorem open_close_sound (s : List Char) : OpenSound s ∧ CloseSound s := by
  -- Each of the two goes on with the other, on a text that is shorter.
  have ih : ∀ r : List Char, r.length < s.length → SoundWithin r :=
    fun r hr q hq =>
      have := Nat.lt_of_le_of_lt hq hr
      open_close_sound q
  exact ⟨openSound_of ih, closeSound_of ih⟩
termination_by s.length

/-! ## Every value is passed over -/

theorem Spelled.ends_items {later : List Tree} {more : List Char} (h : Spelled (.items later) more)
    (rest : List Char) : Ends (more ++ rest) := by
  cases h with
  | noItems hb | items hb =>
    rw [List.append_assoc]
    exact ends_separator hb (by decide)

theorem Spelled.ends_members {later : List (List Char × Tree)} {more : List Char}
    (h : Spelled (.members later) more) (rest : List Char) : Ends (more ++ rest) := by
  cases h with
  | noMembers hb | members hb =>
    rw [List.append_assoc]
    exact ends_separator hb (by decide)

/-- The first character of a value is no blank and no closing bracket. -/
theorem head_of_spelled {tree : Tree} {text : List Char} (h : Spelled (.value tree) text) :
    ∃ c r, text = c :: r ∧ isBlank c = false ∧ c ≠ ']' ∧ c ≠ '}' := by
  cases h with
  | @number n hn =>
    cases hnegative : n.negative with
    | true =>
      rw [Numeral.text, if_pos hnegative]
      exact ⟨'-', _, rfl, by decide, by decide, by decide⟩
    | false =>
      have hnot : ¬ n.negative = true := by simp [hnegative]
      rcases isDigit_of_whole hn.whole with ⟨c, digits, hwhole, hc⟩
      rw [Numeral.text, if_neg hnot, Numeral.magnitude, hwhole]
      refine ⟨c, _, rfl, isBlank_of_isDigit hc, ?_, ?_⟩
      · rintro rfl
        exact absurd hc (by decide)
      · rintro rfl
        exact absurd hc (by decide)
  | null | isTrue | isFalse | text | emptyList | list | emptyObject | object =>
    exact ⟨_, _, rfl, by decide, by decide, by decide⟩

theorem head_of_member {key text : List Char} {tree : Tree} (h : Spelled (.member key tree) text) :
    ∃ r, text = '"' :: r := by
  cases h with
  | member => exact ⟨_, rfl⟩

theorem skipScalar_digit {c : Char} (hc : isDigit c = true) (s : List Char) :
    skipScalar c s = skipNumber (c :: s) := by
  unfold skipScalar
  split
  · exact absurd hc (by decide)
  · exact absurd hc (by decide)
  · exact absurd hc (by decide)
  · exact absurd hc (by decide)
  · exact absurd hc (by decide)
  · exact if_pos hc

/-- A scalar is passed over from its first character on. -/
theorem skipScalar_of_spelled {tree : Tree} {text : List Char} (hscalar : tree.IsScalar)
    (h : Spelled (.value tree) text) (hends : Ends rest) :
    ∃ c r, text ++ rest = c :: r ∧ c ≠ '[' ∧ c ≠ '{' ∧ isBlank c = false ∧
      Yields (skipScalar c r) () rest := by
  cases h with
  | null => exact ⟨'n', _, rfl, by decide, by decide, by decide, yields_readWord.mpr rfl⟩
  | isTrue => exact ⟨'t', _, rfl, by decide, by decide, by decide, yields_readWord.mpr rfl⟩
  | isFalse => exact ⟨'f', _, rfl, by decide, by decide, by decide, yields_readWord.mpr rfl⟩
  | @number n hn =>
    have hskip := skipNumber_of hn hends
    cases hnegative : n.negative with
    | true =>
      rw [Numeral.text, if_pos hnegative]
      exact ⟨'-', _, rfl, by decide, by decide, by decide, yields_widen.mpr hskip⟩
    | false =>
      -- Without a sign the first character is a digit, which none of the other cases takes.
      have hnot : ¬ n.negative = true := by simp [hnegative]
      rcases isDigit_of_whole hn.whole with ⟨c, digits, hwhole, hc⟩
      have htext : n.magnitude ++ rest = c :: (digits ++ (n.fraction ++ n.exponent) ++ rest) := by
        rw [Numeral.magnitude, hwhole]
        simp
      rw [Numeral.text, if_neg hnot, htext]
      rw [htext, ← skipScalar_digit hc] at hskip
      refine ⟨c, _, rfl, ?_, ?_, ?_, hskip⟩
      · rintro rfl
        exact absurd hc (by decide)
      · rintro rfl
        exact absurd hc (by decide)
      · exact isBlank_of_isDigit hc
  | text hraw =>
    refine ⟨'"', _, rfl, by decide, by decide, by decide, yields_widen.mpr ?_⟩
    exact yields_skipText.mpr ⟨_, by simp, hraw⟩
  | emptyList | list | emptyObject | object => exact absurd hscalar id

section

variable {bound : Nat} {frames : List Frame} {r r' rest' : List Char} {c c' : Char}
  {h : r.length < s.length} {h' : r'.length < r.length} {fits : s.length ≤ bound}

theorem skipOpen_scalar (hfront : front s = .char c r h) (hlist : c ≠ '[') (hobject : c ≠ '{')
    (hskip : Yields (skipScalar c r) () rest) {fits' : rest.length < bound}
    (hclose : Yields (skipClose frames rest fits') () rest') :
    Yields (skipOpen frames s fits) () rest' := by
  rcases hskip with ⟨_, hskip⟩
  rw [skipOpen, hfront]
  split
  · rename_i heq
    cases heq
  · rename_i heq
    cases heq
    exact absurd rfl hlist
  · rename_i heq
    cases heq
    exact absurd rfl hobject
  · rename_i heq
    cases heq
    rw [hskip]
    exact hclose

theorem skipOpen_emptyList (hfront : front s = .char '[' r h) (hinner : front r = .char ']' r' h')
    {fits' : r'.length < bound} (hclose : Yields (skipClose frames r' fits') () rest) :
    Yields (skipOpen frames s fits) () rest := by
  rw [skipOpen, hfront]
  simp only [hinner]
  exact hclose

theorem skipOpen_list (hfront : front s = .char '[' r h) (hinner : front r = .char c r' h')
    (hc : c ≠ ']') {fits' : r.length ≤ bound}
    (hopen : Yields (skipOpen (.list :: frames) r fits') () rest) :
    Yields (skipOpen frames s fits) () rest := by
  rw [skipOpen, hfront]
  simp only [hinner]
  exact hopen

theorem skipOpen_emptyObject (hfront : front s = .char '{' r h) (hinner : front r = .char '}' r' h')
    {fits' : r'.length < bound} (hclose : Yields (skipClose frames r' fits') () rest) :
    Yields (skipOpen frames s fits) () rest := by
  rw [skipOpen, hfront]
  simp only [hinner]
  exact hclose

theorem skipOpen_object (hfront : front s = .char '{' r h) (hinner : front r = .char c r' h')
    (hc : c ≠ '}') (hkey : Yields (skipKey r) () rest) {fits' : rest.length ≤ bound}
    (hopen : Yields (skipOpen (.object :: frames) rest fits') () rest') :
    Yields (skipOpen frames s fits) () rest' := by
  rcases hkey with ⟨_, hkey⟩
  rw [skipOpen, hfront]
  simp only [hinner, hkey]
  exact hopen

variable {frame : Frame} {outer : List Frame} {fits : s.length < bound}

theorem skipClose_closer (hfront : front s = .char frame.closer r h) {fits' : r.length < bound}
    (hclose : Yields (skipClose outer r fits') () rest) :
    Yields (skipClose (frame :: outer) s fits) () rest := by
  have hc : frame.closer ≠ ',' := by
    cases frame <;> decide
  rw [skipClose, hfront]
  dsimp only
  rw [if_neg hc, if_pos rfl]
  exact hclose

theorem skipClose_item (hfront : front s = .char ',' r h) {fits' : r.length ≤ bound}
    (hopen : Yields (skipOpen (.list :: outer) r fits') () rest) :
    Yields (skipClose (.list :: outer) s fits) () rest := by
  rw [skipClose, hfront]
  exact hopen

theorem skipClose_member (hfront : front s = .char ',' r h) (hkey : Yields (skipKey r) () rest)
    {fits' : rest.length ≤ bound}
    (hopen : Yields (skipOpen (.object :: outer) rest fits') () rest') :
    Yields (skipClose (.object :: outer) s fits) () rest' := by
  rcases hkey with ⟨_, hkey⟩
  rw [skipClose, hfront]
  dsimp only
  rw [if_pos rfl, hkey]
  exact hopen

end

/-- What is spelled is passed over, whatever frames are open around it. -/
def Passed : Part → List Char → Prop
  | .value _, text => ∀ ⦃bound : Nat⦄ ⦃frames : List Frame⦄ ⦃pre rest r : List Char⦄
      ⦃fits : (pre ++ (text ++ rest)).length ≤ bound⦄ ⦃fits' : rest.length < bound⦄,
      Blanks pre → Ends rest → Yields (skipClose frames rest fits') () r →
        Yields (skipOpen frames (pre ++ (text ++ rest)) fits) () r
  | .member _ _, text => ∀ ⦃bound : Nat⦄ ⦃outer : List Frame⦄ ⦃pre rest r : List Char⦄
      ⦃fits' : rest.length < bound⦄, (pre ++ (text ++ rest)).length ≤ bound →
      Blanks pre → Ends rest → Yields (skipClose (.object :: outer) rest fits') () r →
        ∃ behind, ∃ fits : behind.length ≤ bound,
          Yields (skipKey (pre ++ (text ++ rest))) () behind ∧
            Yields (skipOpen (.object :: outer) behind fits) () r
  | .items _, text => ∀ ⦃bound : Nat⦄ ⦃outer : List Frame⦄ ⦃rest r : List Char⦄
      ⦃fits : (text ++ rest).length < bound⦄ ⦃fits' : rest.length < bound⦄,
      Yields (skipClose outer rest fits') () r →
        Yields (skipClose (.list :: outer) (text ++ rest) fits) () r
  | .members _, text => ∀ ⦃bound : Nat⦄ ⦃outer : List Frame⦄ ⦃rest r : List Char⦄
      ⦃fits : (text ++ rest).length < bound⦄ ⦃fits' : rest.length < bound⦄,
      Yields (skipClose outer rest fits') () r →
        Yields (skipClose (.object :: outer) (text ++ rest) fits) () r

/-! ### One form at a time -/

section

variable {b b' text more key raw : List Char} {tree : Tree} {later : List Tree}
  {others : List (List Char × Tree)}

theorem passed_scalar (hscalar : tree.IsScalar) (h : Spelled (.value tree) text) :
    Passed (.value tree) text := by
  intro bound frames pre rest r fits fits' hpre hends hclose
  rcases skipScalar_of_spelled hscalar h hends with ⟨c, s, hs, hlist, hobject, hblank, hskip⟩
  rcases front_of_eq (congrArg (pre ++ ·) hs) hpre hblank with ⟨_, hfront⟩
  exact skipOpen_scalar hfront hlist hobject hskip hclose

theorem passed_emptyList (hb : Blanks b) : Passed (.value (.list [])) ('[' :: (b ++ [']'])) := by
  intro bound frames pre rest r fits fits' hpre hends hclose
  have hs : pre ++ ('[' :: (b ++ [']']) ++ rest) = pre ++ '[' :: (b ++ ']' :: rest) := by simp
  rcases front_of_eq hs hpre (by decide) with ⟨_, hfront⟩
  rcases front_append hb (by decide : isBlank ']' = false) rest with ⟨_, hinner⟩
  exact skipOpen_emptyList hfront hinner hclose

theorem passed_list (hb : Blanks b) (head : Spelled (.value tree) text)
    (tail : Spelled (.items later) more) (hhead : Passed (.value tree) text)
    (htail : Passed (.items later) more) :
    Passed (.value (.list (tree :: later))) ('[' :: (b ++ (text ++ more))) := by
  intro bound frames pre rest r fits fits' hpre hends hclose
  have hs : pre ++ ('[' :: (b ++ (text ++ more)) ++ rest) =
      pre ++ '[' :: (b ++ (text ++ (more ++ rest))) := by simp
  have hfits : (b ++ (text ++ (more ++ rest))).length ≤ bound ∧ (more ++ rest).length < bound := by
    simp only [List.length_append, List.length_cons] at fits ⊢
    omega
  rcases head_of_spelled head with ⟨c, r', rfl, hblank, hc, -⟩
  rcases front_of_eq hs hpre (by decide) with ⟨_, hfront⟩
  rcases front_append hb hblank (r' ++ (more ++ rest)) with ⟨_, hinner⟩
  have hclose' : Yields (skipClose (.list :: frames) (more ++ rest) hfits.2) () r := htail hclose
  have hopen :
      Yields (skipOpen (.list :: frames) (b ++ (c :: r' ++ (more ++ rest))) hfits.1) () r :=
    hhead hb (tail.ends_items rest) hclose'
  exact skipOpen_list hfront hinner hc hopen

theorem passed_noItems (hb : Blanks b) : Passed (.items []) (b ++ [']']) := by
  intro bound outer rest r fits fits' hclose
  have hs : b ++ [']'] ++ rest = b ++ ']' :: rest := by simp
  rcases front_of_eq hs hb (by decide) with ⟨_, hfront⟩
  exact skipClose_closer hfront hclose

theorem passed_items (hb : Blanks b) (hb' : Blanks b') (tail : Spelled (.items later) more)
    (hhead : Passed (.value tree) text) (htail : Passed (.items later) more) :
    Passed (.items (tree :: later)) (b ++ ',' :: (b' ++ (text ++ more))) := by
  intro bound outer rest r fits fits' hclose
  have hs : b ++ ',' :: (b' ++ (text ++ more)) ++ rest =
      b ++ ',' :: (b' ++ (text ++ (more ++ rest))) := by simp
  have hfits : (b' ++ (text ++ (more ++ rest))).length ≤ bound ∧ (more ++ rest).length < bound := by
    simp only [List.length_append, List.length_cons] at fits ⊢
    omega
  have hclose' : Yields (skipClose (.list :: outer) (more ++ rest) hfits.2) () r := htail hclose
  have hopen : Yields (skipOpen (.list :: outer) (b' ++ (text ++ (more ++ rest))) hfits.1) () r :=
    hhead hb' (tail.ends_items rest) hclose'
  rcases front_of_eq hs hb (by decide) with ⟨_, hfront⟩
  exact skipClose_item hfront hopen

theorem passed_emptyObject (hb : Blanks b) :
    Passed (.value (.object [])) ('{' :: (b ++ ['}'])) := by
  intro bound frames pre rest r fits fits' hpre hends hclose
  have hs : pre ++ ('{' :: (b ++ ['}']) ++ rest) = pre ++ '{' :: (b ++ '}' :: rest) := by simp
  rcases front_of_eq hs hpre (by decide) with ⟨_, hfront⟩
  rcases front_append hb (by decide : isBlank '}' = false) rest with ⟨_, hinner⟩
  exact skipOpen_emptyObject hfront hinner hclose

theorem passed_object (hb : Blanks b) (head : Spelled (.member key tree) text)
    (tail : Spelled (.members others) more) (hhead : Passed (.member key tree) text)
    (htail : Passed (.members others) more) :
    Passed (.value (.object ((key, tree) :: others))) ('{' :: (b ++ (text ++ more))) := by
  intro bound frames pre rest r fits fits' hpre hends hclose
  have hs : pre ++ ('{' :: (b ++ (text ++ more)) ++ rest) =
      pre ++ '{' :: (b ++ (text ++ (more ++ rest))) := by simp
  have hfits : (b ++ (text ++ (more ++ rest))).length ≤ bound ∧ (more ++ rest).length < bound := by
    simp only [List.length_append, List.length_cons] at fits ⊢
    omega
  have hclose' : Yields (skipClose (.object :: frames) (more ++ rest) hfits.2) () r :=
    htail hclose
  rcases hhead hfits.1 hb (tail.ends_members rest) hclose' with ⟨behind, _, hkey, hopen⟩
  rcases front_of_eq hs hpre (by decide) with ⟨_, hfront⟩
  rcases head_of_member head with ⟨r', rfl⟩
  rcases front_append hb (by decide : isBlank '"' = false) (r' ++ (more ++ rest)) with ⟨_, hinner⟩
  exact skipOpen_object hfront hinner (by decide) hkey hopen

theorem passed_member (hraw : TextForm raw) (hb : Blanks b) (hb' : Blanks b')
    (hvalue : Passed (.value tree) text) :
    Passed (.member raw tree) ('"' :: (raw ++ '"' :: (b ++ ':' :: (b' ++ text)))) := by
  intro bound outer pre rest r fits' hfits hpre hends hclose
  have hs : pre ++ ('"' :: (raw ++ '"' :: (b ++ ':' :: (b' ++ text))) ++ rest) =
      pre ++ '"' :: (raw ++ '"' :: (b ++ ':' :: (b' ++ (text ++ rest)))) := by simp
  have hbehind : (b' ++ (text ++ rest)).length ≤ bound := by
    simp only [List.length_append, List.length_cons] at hfits ⊢
    omega
  have hkey := yields_skipKey.mpr ⟨pre, raw, b, hpre, hraw, hb, hs⟩
  exact ⟨_, hbehind, hkey, hvalue hb' hends hclose⟩

theorem passed_noMembers (hb : Blanks b) : Passed (.members []) (b ++ ['}']) := by
  intro bound outer rest r fits fits' hclose
  have hs : b ++ ['}'] ++ rest = b ++ '}' :: rest := by simp
  rcases front_of_eq hs hb (by decide) with ⟨_, hfront⟩
  exact skipClose_closer hfront hclose

theorem passed_members (hb : Blanks b) (hb' : Blanks b') (tail : Spelled (.members others) more)
    (hhead : Passed (.member key tree) text) (htail : Passed (.members others) more) :
    Passed (.members ((key, tree) :: others)) (b ++ ',' :: (b' ++ (text ++ more))) := by
  intro bound outer rest r fits fits' hclose
  have hs : b ++ ',' :: (b' ++ (text ++ more)) ++ rest =
      b ++ ',' :: (b' ++ (text ++ (more ++ rest))) := by simp
  have hfits : (b' ++ (text ++ (more ++ rest))).length ≤ bound ∧ (more ++ rest).length < bound := by
    simp only [List.length_append, List.length_cons] at fits ⊢
    omega
  have hclose' : Yields (skipClose (.object :: outer) (more ++ rest) hfits.2) () r := htail hclose
  rcases hhead hfits.1 hb' (tail.ends_members rest) hclose' with ⟨behind, _, hkey, hopen⟩
  rcases front_of_eq hs hb (by decide) with ⟨_, hfront⟩
  exact skipClose_member hfront hkey hopen

end

theorem Spelled.passed {part : Part} {text : List Char} (h : Spelled part text) :
    Passed part text := by
  induction h with
  | null => exact passed_scalar trivial .null
  | isTrue => exact passed_scalar trivial .isTrue
  | isFalse => exact passed_scalar trivial .isFalse
  | number hn => exact passed_scalar trivial (.number hn)
  | text hraw => exact passed_scalar trivial (.text hraw)
  | emptyList hb => exact passed_emptyList hb
  | list hb head tail ihhead ihtail => exact passed_list hb head tail ihhead ihtail
  | emptyObject hb => exact passed_emptyObject hb
  | object hb head tail ihhead ihtail => exact passed_object hb head tail ihhead ihtail
  | member hraw hb hb' _ ih => exact passed_member hraw hb hb' ih
  | noItems hb => exact passed_noItems hb
  | items hb hb' _ tail ihhead ihtail => exact passed_items hb hb' tail ihhead ihtail
  | noMembers hb => exact passed_noMembers hb
  | members hb hb' _ tail ihhead ihtail => exact passed_members hb hb' tail ihhead ihtail

/-! ## Values -/

/-- Nothing but values is passed over. -/
theorem of_skipValue (h : Yields (skipValue s) () rest) :
    ∃ pre tree body, Blanks pre ∧ s = pre ++ (body ++ rest) ∧ Spelled (.value tree) body := by
  rcases (open_close_sound s).1 h with ⟨pre, tree, body, tail, _, hpre, hs, hbody, hclose⟩
  rw [skipClose] at hclose
  rcases yields_ok.mp hclose with ⟨-, rfl⟩
  exact ⟨pre, tree, body, hpre, hs, hbody⟩

/-- Every value is passed over. -/
theorem skipValue_of {pre body : List Char} {tree : Tree} (hpre : Blanks pre)
    (h : Spelled (.value tree) body) (hends : Ends rest) :
    Yields (skipValue (pre ++ (body ++ rest))) () rest := by
  rcases head_of_spelled h with ⟨c, r, rfl, -⟩
  have hlt : rest.length < (pre ++ (c :: r ++ rest)).length := by
    simp only [List.length_append, List.length_cons]
    omega
  have hclose : Yields (skipClose [] rest hlt) () rest := by
    rw [skipClose]
    exact yields_ok.mpr ⟨rfl, rfl⟩
  exact h.passed hpre hends hclose

end Fieldbus.Json
