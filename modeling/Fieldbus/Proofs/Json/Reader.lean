import Fieldbus.Json.Reader

/-!
# What readers yield

`Yields` says which value a reader answers and which rest it leaves.  It passes through the ways in
which readers are put together, so that the specification of a reader is the one of its parts.
-/

namespace Fieldbus.Json

variable {α β : Type} {m n : Nat} {value : α} {rest s : List Char}

/-! ## Outcomes -/

/-- A reader succeeds with this value, and leaves this rest. -/
def Yields (e : Except Failure (Taken n α)) (value : α) (rest : List Char) : Prop :=
  ∃ h, e = .ok ⟨value, rest, h⟩

theorem Yields.length_lt {e : Except Failure (Taken n α)} (h : Yields e value rest) :
    rest.length < n :=
  h.1

theorem yields_ok {taken : Taken n α} :
    Yields (.ok taken) value rest ↔ taken.value = value ∧ taken.rest = rest := by
  refine ⟨?_, ?_⟩
  · rintro ⟨h, htaken⟩
    cases htaken
    exact ⟨rfl, rfl⟩
  · rintro ⟨rfl, rfl⟩
    exact ⟨taken.shorter, rfl⟩

theorem yields_pure {taken : Taken n α} :
    Yields (pure taken) value rest ↔ taken.value = value ∧ taken.rest = rest :=
  yields_ok

theorem not_yields_error {failure : Failure} :
    ¬ Yields (.error failure : Except Failure (Taken n α)) value rest := by
  rintro ⟨_, h⟩
  cases h

theorem yields_bind {e : Except Failure β} {f : β → Except Failure (Taken n α)} :
    Yields (e >>= f) value rest ↔ ∃ b, e = .ok b ∧ Yields (f b) value rest := by
  cases e with
  | error failure =>
    refine ⟨fun h => absurd h not_yields_error, ?_⟩
    rintro ⟨b, hb, -⟩
    cases hb
  | ok b =>
    refine ⟨fun h => ⟨b, rfl, h⟩, ?_⟩
    rintro ⟨b', hb, h⟩
    cases hb
    exact h

/-- A reader and then another one on its rest. -/
theorem yields_taken {e : Except Failure (Taken m β)}
    {f : Taken m β → Except Failure (Taken n α)} :
    Yields (e >>= f) value rest ↔
      ∃ (b : β) (r : List Char) (h : r.length < m),
        Yields e b r ∧ Yields (f ⟨b, r, h⟩) value rest := by
  rw [yields_bind]
  refine ⟨?_, ?_⟩
  · rintro ⟨⟨b, r, h⟩, he, hf⟩
    exact ⟨b, r, h, ⟨h, he⟩, hf⟩
  · rintro ⟨b, r, h, ⟨h', he⟩, hf⟩
    exact ⟨⟨b, r, h'⟩, he, hf⟩

theorem yields_widen {e : Except Failure (Taken m α)} {h : Taken m α → m ≤ n} :
    Yields (e >>= fun taken => pure (taken.widen (h taken))) value rest ↔ Yields e value rest := by
  rw [yields_taken]
  refine ⟨?_, ?_⟩
  · rintro ⟨v, r, hr, he, hf⟩
    rcases yields_pure.mp hf with ⟨rfl, rfl⟩
    exact he
  · rintro ⟨hr, he⟩
    exact ⟨value, rest, hr, ⟨hr, he⟩, yields_pure.mpr ⟨rfl, rfl⟩⟩

theorem yields_map {e : Except Failure (Taken n β)} {f : β → α} :
    Yields (e >>= fun taken => pure (taken.map f)) value rest ↔
      ∃ b, Yields e b rest ∧ f b = value := by
  rw [yields_taken]
  refine ⟨?_, ?_⟩
  · rintro ⟨b, r, hr, he, hf⟩
    rcases yields_pure.mp hf with ⟨hvalue, rfl⟩
    exact ⟨b, he, hvalue⟩
  · rintro ⟨b, he, hvalue⟩
    exact ⟨b, rest, he.length_lt, he, yields_pure.mpr ⟨hvalue, rfl⟩⟩

theorem yields_map_widen {e : Except Failure (Taken m β)} {f : β → α} {h : Taken m β → m ≤ n} :
    Yields (e >>= fun taken => pure ((taken.map f).widen (h taken))) value rest ↔
      ∃ b, Yields e b rest ∧ f b = value := by
  rw [yields_taken]
  refine ⟨?_, ?_⟩
  · rintro ⟨b, r, hr, he, hf⟩
    rcases yields_pure.mp hf with ⟨hvalue, rfl⟩
    exact ⟨b, he, hvalue⟩
  · rintro ⟨b, he, hvalue⟩
    exact ⟨b, rest, he.length_lt, he, yields_pure.mpr ⟨hvalue, rfl⟩⟩

/-! ## Blanks -/

/-- Nothing but blanks. -/
def Blanks (s : List Char) : Prop :=
  ∀ c ∈ s, isBlank c = true

theorem blanks_nil : Blanks [] :=
  fun _ hc => nomatch hc

theorem blanks_append {pre : List Char} (hpre : Blanks pre) (hs : Blanks s) :
    Blanks (pre ++ s) := by
  intro c hc
  rcases List.mem_append.mp hc with hc | hc
  · exact hpre c hc
  · exact hs c hc

theorem skipBlanks_append {pre : List Char} (hpre : Blanks pre) (s : List Char) :
    skipBlanks (pre ++ s) = skipBlanks s := by
  induction pre with
  | nil => rfl
  | cons c pre ih =>
    rw [skipBlanks, List.cons_append, List.dropWhile_cons_of_pos (hpre c List.mem_cons_self)]
    exact ih fun d hd => hpre d (List.mem_cons_of_mem _ hd)

theorem skipBlanks_cons {c : Char} (hc : isBlank c = false) (s : List Char) :
    skipBlanks (c :: s) = c :: s :=
  List.dropWhile_cons_of_neg (by simp [hc])

/-- A text is blanks, and behind them what is left without blanks in front. -/
theorem exists_blanks (s : List Char) :
    ∃ pre, Blanks pre ∧ s = pre ++ skipBlanks s ∧
      ∀ c rest, skipBlanks s = c :: rest → isBlank c = false := by
  induction s with
  | nil => exact ⟨[], blanks_nil, rfl, fun _ _ h => nomatch h⟩
  | cons c s ih =>
    cases hc : isBlank c with
    | true =>
      rcases ih with ⟨pre, hpre, hs, hfirst⟩
      have hskip : skipBlanks (c :: s) = skipBlanks s := List.dropWhile_cons_of_pos hc
      refine ⟨c :: pre, ?_, ?_, ?_⟩
      · intro d hd
        rcases List.mem_cons.mp hd with rfl | hd
        · exact hc
        · exact hpre d hd
      · rw [hskip, List.cons_append, ← hs]
      · rw [hskip]
        exact hfirst
    | false =>
      rw [skipBlanks_cons hc]
      refine ⟨[], blanks_nil, rfl, ?_⟩
      rintro d rest ⟨⟩
      exact hc

theorem front_of_skipBlanks {c : Char} (h : skipBlanks s = c :: rest) :
    ∃ shorter, front s = .char c rest shorter := by
  have hlength := length_skipBlanks_le s
  rw [h] at hlength
  refine ⟨hlength, ?_⟩
  unfold front
  split
  · rename_i hnil
    cases hnil.symm.trans h
  · rename_i hcons
    cases hcons.symm.trans h
    rfl

/-- In front of blanks stands the first character behind them. -/
theorem front_append {pre : List Char} {c : Char} (hpre : Blanks pre) (hc : isBlank c = false)
    (rest : List Char) : ∃ shorter, front (pre ++ c :: rest) = .char c rest shorter := by
  refine front_of_skipBlanks ?_
  rw [skipBlanks_append hpre, skipBlanks_cons hc]

theorem front_of_eq {pre : List Char} {c : Char} (hs : s = pre ++ c :: rest) (hpre : Blanks pre)
    (hc : isBlank c = false) : ∃ shorter, front s = .char c rest shorter := by
  subst hs
  exact front_append hpre hc rest

theorem skipBlanks_eq_nil_iff : skipBlanks s = [] ↔ Blanks s := by
  refine ⟨?_, ?_⟩
  · intro h
    rcases exists_blanks s with ⟨pre, hpre, hs, -⟩
    rw [h, List.append_nil] at hs
    exact hs ▸ hpre
  · intro h
    have hskip := skipBlanks_append h []
    rwa [List.append_nil] at hskip

theorem front_of_blanks (h : Blanks s) : front s = .blank := by
  have hnil : skipBlanks s = [] := skipBlanks_eq_nil_iff.mpr h
  unfold front
  split
  · rfl
  · rename_i hcons
    cases hnil.symm.trans hcons

/-- What stands in front of a text. -/
theorem front_cases (s : List Char) :
    (Blanks s ∧ front s = .blank) ∨
      ∃ pre c rest shorter, Blanks pre ∧ isBlank c = false ∧ s = pre ++ c :: rest ∧
        front s = .char c rest shorter := by
  rcases exists_blanks s with ⟨pre, hpre, hs, hfirst⟩
  cases hskip : skipBlanks s with
  | nil =>
    rw [hskip, List.append_nil] at hs
    subst hs
    exact Or.inl ⟨hpre, front_of_blanks hpre⟩
  | cons c rest =>
    rcases front_of_skipBlanks hskip with ⟨shorter, hfront⟩
    rw [hskip] at hs
    exact Or.inr ⟨pre, c, rest, shorter, hpre, hfirst c rest hskip, hs, hfront⟩

/-! ## Words -/

theorem yields_readWord {word : List Char} :
    Yields (readWord word s) () rest ↔ s = word ++ rest := by
  induction word generalizing s with
  | nil =>
    rw [readWord, yields_ok]
    exact ⟨fun h => h.2, fun h => ⟨rfl, h⟩⟩
  | cons w word ih =>
    cases s with
    | nil =>
      rw [readWord]
      exact ⟨fun h => absurd h not_yields_error, fun h => nomatch h⟩
    | cons c s =>
      rw [readWord]
      split
      · rename_i hc
        subst hc
        rw [yields_widen, ih, List.cons_append]
        exact ⟨fun h => h ▸ rfl, fun h => (List.cons.inj h).2⟩
      · rename_i hc
        refine ⟨fun h => absurd h not_yields_error, ?_⟩
        intro h
        exact absurd (List.cons.inj h).1 hc

end Fieldbus.Json
