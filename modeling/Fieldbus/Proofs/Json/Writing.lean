import Fieldbus.Json.Document
import Fieldbus.Proofs.Json.Field

/-!
# Written documents

What `Document.write` sets down is spelled by the grammar: the tree of the document keeps its texts
escaped and its numbers digit by digit, and both stand for what was written.  So a document that
writes every field of an object under its name describes that object, whatever it is laid over.
-/

namespace Fieldbus.Json

/-! ## Texts -/

theorem hexValue?_hexDigit {n : Nat} (hn : n < 16) : hexValue? (hexDigit n) = some n := by
  have hall : ∀ n < 16, hexValue? (hexDigit n) = some n := by decide
  exact hall n hn

/-- The four digits that a control character is escaped with. -/
theorem codeUnit?_control {n : Nat} (hn : n < 32) :
    codeUnit? '0' '0' (hexDigit (n / 16)) (hexDigit (n % 16)) = some n := by
  have hhigh : hexValue? (hexDigit (n / 16)) = some (n / 16) := hexValue?_hexDigit (by omega)
  have hlow : hexValue? (hexDigit (n % 16)) = some (n % 16) := hexValue?_hexDigit (by omega)
  have hzero : hexValue? '0' = some 0 := by decide
  have hvalue : ((0 * 16 + 0) * 16 + n / 16) * 16 + n % 16 = n := by omega
  simp only [codeUnit?, hzero, hhigh, hlow, Option.bind_eq_bind, Option.bind_some, hvalue,
    Option.pure_def]

theorem decodes_letter {c x : Char} {raw chars : List Char} (h : plainEscape? c = some x)
    (more : Decodes raw chars) : Decodes ('\\' :: c :: raw) (x :: chars) := by
  have hescape : Escape [c] x := .letter h
  exact .escape hescape more

/-- An escaped character stands for itself. -/
theorem decodes_escapedChar (c : Char) {raw chars : List Char} (more : Decodes raw chars) :
    Decodes (escapedChar c ++ raw) (c :: chars) := by
  unfold escapedChar
  split
  · subst_vars
    exact decodes_letter rfl more
  split
  · subst_vars
    exact decodes_letter rfl more
  split
  · subst_vars
    exact decodes_letter rfl more
  split
  · subst_vars
    exact decodes_letter rfl more
  split
  · subst_vars
    exact decodes_letter rfl more
  split
  · subst_vars
    exact decodes_letter rfl more
  split
  · subst_vars
    exact decodes_letter rfl more
  split
  · rename_i hcontrol
    have hlt : c.toNat < 32 := hcontrol
    have hescape := Escape.unit (codeUnit?_control hlt) (fun h => absurd h.1 (by omega))
      (fun h => absurd h.1 (by omega))
    rw [Char.ofNat_toNat] at hescape
    exact .escape hescape more
  · rename_i hquote hslash _ _ _ _ _ hcontrol
    exact .plain ⟨hquote, hslash, hcontrol⟩ more

theorem decodes_escaped (chars : List Char) : Decodes (chars.flatMap escapedChar) chars := by
  induction chars with
  | nil => exact .nil
  | cons c chars ih =>
    rw [List.flatMap_cons]
    exact decodes_escapedChar c ih

/-! ## Numbers -/

/-- The number as it is written, with digits only. -/
def Numeral.ofNat (n : Nat) : Numeral :=
  ⟨false, Nat.toDigits 10 n, [], []⟩

theorem Numeral.text_ofNat (n : Nat) : (Numeral.ofNat n).text = Nat.toDigits 10 n := by
  simp [Numeral.ofNat, Numeral.text, Numeral.magnitude]

theorem Numeral.value_ofNat (n : Nat) : (Numeral.ofNat n).value = n := by
  have hstep : (fun value digit => value * 10 + digitValue digit) =
      fun value (digit : Char) => 10 * value + (digit.toNat - '0'.toNat) := by
    funext value digit
    rw [digitValue, Nat.mul_comm]
  rw [Numeral.value, Numeral.ofNat, hstep]
  exact Nat.ofDigitChars_toDigits (by decide) (by decide)

theorem isDigit_of_mem_toDigits {n : Nat} {c : Char} (hc : c ∈ Nat.toDigits 10 n) :
    isDigit c = true := by
  have hdigit : c.isDigit = true := Nat.isDigit_of_mem_toDigits (by decide) (by decide) hc
  exact hdigit

/-- No number but zero begins with the digit zero. -/
theorem head_toDigits_ne_zero {n : Nat} (hn : n ≠ 0) :
    ∃ c digits, Nat.toDigits 10 n = c :: digits ∧ c ≠ '0' := by
  induction n using Nat.strongRecOn with
  | _ n ih =>
    rw [Nat.toDigits_eq_if (by decide)]
    by_cases hsmall : n < 10
    · rw [if_pos hsmall]
      exact ⟨_, [], rfl, fun hzero => hn (Nat.digitChar_eq_zero.mp hzero)⟩
    · -- The first digit is that of the number without its last one.
      rw [if_neg hsmall]
      rcases ih (n / 10) (by omega) (by omega) with ⟨c, digits, hdigits, hc⟩
      rw [hdigits]
      exact ⟨c, _, rfl, hc⟩

theorem whole_toDigits (n : Nat) : Whole (Nat.toDigits 10 n) := by
  by_cases hn : n = 0
  · subst hn
    exact .zero
  · rcases head_toDigits_ne_zero hn with ⟨c, digits, hdigits, hc⟩
    have hall : ∀ d ∈ c :: digits, isDigit d = true := by
      intro d hd
      rw [← hdigits] at hd
      exact isDigit_of_mem_toDigits hd
    rw [hdigits]
    exact .digits hc ⟨List.cons_ne_nil c digits, hall⟩

theorem Numeral.wellFormed_ofNat (n : Nat) : (Numeral.ofNat n).WellFormed :=
  ⟨whole_toDigits n, .none, .none⟩

/-! ## Trees -/

namespace Document

mutual

/-- The tree that the text of a document spells. -/
def tree : Document → Tree
  | flag value => .flag value
  | number value => .number (.ofNat value)
  | text value => .text (value.toList.flatMap escapedChar)
  | list items => .list (trees items)
  | object members => .object (memberTrees members)

/-- The trees of the items of a list. -/
def trees : List Document → List Tree
  | [] => []
  | item :: items => item.tree :: trees items

/-- The trees of the members of an object, under their keys as they are written. -/
def memberTrees : List (String × Document) → List (List Char × Tree)
  | [] => []
  | (name, value) :: members =>
    (name.toList.flatMap escapedChar, value.tree) :: memberTrees members

end

theorem blanks_lineBreak (depth : Nat) : Blanks (lineBreak depth) := by
  intro c hc
  rcases List.mem_cons.mp hc with rfl | hc
  · decide
  · rw [List.eq_of_mem_replicate hc]
    decide

theorem spelled_writtenText (value : String) :
    Spelled (.value (.text (value.toList.flatMap escapedChar))) (writtenText value) :=
  .text (decodes_escaped value.toList).form

/-- A member with one blank behind its colon. -/
theorem spelled_member (name : String) {tree : Tree} {s : List Char}
    (hvalue : Spelled (.value tree) s) :
    Spelled (.member (name.toList.flatMap escapedChar) tree)
      (writtenText name ++ ':' :: ' ' :: s) := by
  have hblank : Blanks [' '] := by
    intro c hc
    rw [List.mem_singleton.mp hc]
    decide
  have hmember := Spelled.member (decodes_escaped name.toList).form blanks_nil hblank hvalue
  simpa [writtenText] using hmember

mutual

/-- A written document is spelled as its tree, at every depth. -/
theorem spelled_write (depth : Nat) : (document : Document) →
    Spelled (.value document.tree) (document.write depth)
  | flag true => .isTrue
  | flag false => .isFalse
  | number value => by
    have hnumber := Spelled.number (Numeral.wellFormed_ofNat value)
    rw [Numeral.text_ofNat] at hnumber
    exact hnumber
  | text value => spelled_writtenText value
  | list [] => .emptyList blanks_nil
  | list (item :: items) => by
    have hitems := Spelled.list (blanks_lineBreak (depth + 1)) (spelled_write (depth + 1) item)
      (spelled_writeItems depth items)
    simpa [write, writeItems, tree, trees] using hitems
  | object [] => .emptyObject blanks_nil
  | object ((name, value) :: members) => by
    have hmembers := Spelled.object (blanks_lineBreak (depth + 1))
      (spelled_member name (spelled_write (depth + 1) value))
      (spelled_writeMembers depth members)
    simpa [write, writeMembers, tree, memberTrees] using hmembers

theorem spelled_writeItems (depth : Nat) : (items : List Document) →
    Spelled (.items (trees items)) (writeItems depth false items ++ [']'])
  | [] => .noItems (blanks_lineBreak depth)
  | item :: items => by
    have hitems := Spelled.items blanks_nil (blanks_lineBreak (depth + 1))
      (spelled_write (depth + 1) item) (spelled_writeItems depth items)
    simpa [writeItems, trees] using hitems

theorem spelled_writeMembers (depth : Nat) : (members : List (String × Document)) →
    Spelled (.members (memberTrees members)) (writeMembers depth false members ++ ['}'])
  | [] => .noMembers (blanks_lineBreak depth)
  | (name, value) :: members => by
    have hmembers := Spelled.members blanks_nil (blanks_lineBreak (depth + 1))
      (spelled_member name (spelled_write (depth + 1) value))
      (spelled_writeMembers depth members)
    simpa [writeMembers, memberTrees] using hmembers

end

theorem isDocument_render (document : Document) : IsDocument document.render document.tree := by
  refine ⟨[], document.write 0, [], blanks_nil, blanks_nil, ?_, spelled_write 0 document⟩
  rw [render, String.toList_ofList, List.nil_append, List.append_nil]

/-! ## Values -/

theorem isText_tree (value : String) : (text value).tree.IsText value :=
  ⟨_, rfl, decodes_escaped value.toList⟩

theorem isNatural_tree (value : Nat) : (number value).tree.IsNatural value :=
  ⟨.ofNat value, rfl, ⟨rfl, rfl, rfl⟩, Numeral.value_ofNat value⟩

end Document

/-! ## Objects -/

section

variable {σ τ : Type} {views : Views σ} {base value : σ}

/-- The member writes what the value shows in the field. -/
def View.WrittenBy (w : View σ) (value : σ) (member : String × Document) : Prop :=
  member.1 = w.name ∧ w.Means member.2.tree (w.get value)

/-- The members under their names, with the trees of their values. -/
def entriesOf (members : List (String × Document)) : List (String × Tree) :=
  members.map fun member => (member.1, member.2.tree)

theorem keyed_memberTrees (members : List (String × Document)) :
    Keyed (Document.memberTrees members) (entriesOf members) := by
  induction members with
  | nil => exact .nil
  | cons member members ih => exact .cons ⟨decodes_escaped member.1.toList, rfl⟩ ih

variable {all : List (View σ)} {members : List (String × Document)}

theorem map_fst_entriesOf (h : List.Forall₂ (·.WrittenBy value) all members) :
    (entriesOf members).map (·.1) = all.map (·.name) := by
  induction h with
  | nil => rfl
  | cons hmember _ ih =>
    rw [entriesOf, List.map_cons, List.map_cons, List.map_cons, ← ih, ← hmember.1]
    rfl

theorem exists_view_of_mem_entriesOf (h : List.Forall₂ (·.WrittenBy value) all members)
    {name : String} {tree : Tree} (hmem : (name, tree) ∈ entriesOf members) :
    ∃ w ∈ all, w.name = name ∧ w.Means tree (w.get value) := by
  induction h with
  | nil => cases hmem
  | @cons w member _ _ hmember _ ih =>
    rcases List.mem_cons.mp hmem with heq | hmem
    · cases heq
      exact ⟨w, List.mem_cons_self, hmember.1.symm, hmember.2⟩
    · rcases ih hmem with ⟨w', hw', hmeans⟩
      exact ⟨w', List.mem_cons_of_mem w hw', hmeans⟩

/-- An object that writes all fields in their order, each as the value shows it, describes the
value, whatever it is laid over and whether or not all fields have to be written. -/
theorem described_of_written (h : List.Forall₂ (·.WrittenBy value) views.all members)
    (complete : Bool) :
    Described views base complete (Document.object members).tree value := by
  have hnames := map_fst_entriesOf h
  have hpresent : ∀ w ∈ views.all, ∃ tree, (w.name, tree) ∈ entriesOf members := by
    intro w hw
    have hname : w.name ∈ (entriesOf members).map (·.1) := by
      rw [hnames]
      exact List.mem_map_of_mem hw
    rcases List.mem_map.mp hname with ⟨⟨name, tree⟩, hmem, rfl⟩
    exact ⟨tree, hmem⟩
  refine ⟨entriesOf members, .members (keyed_memberTrees members), ?_, fun _ => hpresent, ?_⟩
  · intro w hw
    have hcount : (entriesOf members).countP (·.1 = w.name) =
        (views.all.map (·.name)).count w.name := by
      rw [← hnames, List.count, List.countP_map]
      rfl
    rw [hcount]
    exact List.nodup_iff_count.mp views.nodup w.name
  · intro w hw
    refine ⟨?_, fun habsent => ?_⟩
    · intro tree hmem
      -- Names are told apart, so the entry under this name is the one that belongs to the field.
      rcases exists_view_of_mem_entriesOf h hmem with ⟨w', hw', hname, hmeans⟩
      rw [eq_of_name_eq views.nodup hw hw' hname.symm]
      exact hmeans
    · rcases hpresent w hw with ⟨tree, hmem⟩
      exact absurd hmem (habsent tree)

end

end Fieldbus.Json
