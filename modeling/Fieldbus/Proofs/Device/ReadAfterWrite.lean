import Fieldbus.Proofs.Device.Counter
import Fieldbus.Proofs.Device.Exceptions

/-!
# Writing and reading in one request

The request that writes and reads does what two requests would do: one to write, and then, if that
was granted, one to read (`Device.serve_readWrite_eq`).  So its read sees its own write: each word
that it is answered with is the counter, or one of the words it wrote, or the word that was there
before.
-/

namespace Fieldbus

/-- The answer to a read as part of a request that writes before. -/
def Response.afterWrite : Response → Response
  | .readHoldingRegisters words => .readWriteMultipleRegisters words
  | r => r

namespace Device

variable {d : Device} {s : DeviceSettings}

/-- Serves a request to write registers and then, if that was granted, one to read registers. -/
def serveHalves (d : Device) (unitId : UInt8) (readStart readQuantity writeStart : UInt16)
    (values : List UInt16) : Outcome Device (Except ExceptionCode Response) :=
  (d.serve unitId (.writeMultipleRegisters writeStart values)).andTry fun _ written =>
    written.serve unitId (.readHoldingRegisters readStart readQuantity)

/-! ## The two halves -/

/-- What a reply is made into comes after what the reply was made from. -/
theorem reply_andTry_reply {α β : Type} (o : Outcome Device (Except Refusal α))
    (next : Device → Outcome Device (Except Refusal β)) (written : α → Response)
    (read : β → Response) :
    reply (o.andTry fun _ d => next d) (Response.afterWrite ∘ read) =
      ((reply o written).andTry fun _ d => reply (next d) read).map
        (Except.map Response.afterWrite) := by
  rcases o with ⟨answer, state, events⟩
  cases answer with
  | error refusal => rfl
  | ok cells =>
    -- Both go on with the same outcome, however it is answered.
    simp only [reply, Outcome.map, Outcome.andTry, Outcome.andThen]
    cases (next state).answer <;> rfl

/-- The request that writes and reads is served as its halves are. -/
theorem serve_readWrite_eq (d : Device) (unitId : UInt8)
    (readStart readQuantity writeStart : UInt16) {values : List UInt16}
    (hlength : values.length ≤ maxWriteQuantity) :
    d.serve unitId (.readWriteMultipleRegisters readStart readQuantity writeStart values) =
      (d.serveHalves unitId readStart readQuantity writeStart values).map
        (Except.map Response.afterWrite) := by
  have hwrite : d.serve unitId (.writeMultipleRegisters writeStart values) =
      reply (d.handle unitId (k := .holding) (.write (by decide) writeStart values))
        fun _ => .writeMultipleRegisters writeStart values.length.toUInt16 :=
    if_neg (Nat.not_lt.mpr hlength)
  rw [serveHalves, hwrite]
  exact reply_andTry_reply _ (·.handle unitId (k := .holding) (.read readStart readQuantity)) _
    .readHoldingRegisters

/-! ## What is read -/

/-- The request is granted exactly when both of its ranges are for the unit and inside the table. -/
theorem Realizes.serve_readWrite_eq_ok_iff (h : d.Realizes s) (unitId : UInt8)
    (readStart readQuantity writeStart : UInt16) (values : List UInt16) :
    (∃ response, (d.serve unitId (.readWriteMultipleRegisters readStart readQuantity writeStart
        values)).answer = .ok response) ↔
      s.Admits unitId writeStart values.length ∧ s.Admits unitId readStart readQuantity.toNat := by
  have hadmissible := h.admissible_serve unitId
    (.readWriteMultipleRegisters readStart readQuantity writeStart values)
  rw [Request.Admissible, Request.exception?_readWriteMultipleRegisters] at hadmissible
  by_cases hunit : unitId = s.unitId
  · rw [if_neg (not_not_intro hunit)] at hadmissible
    by_cases hover : (Request.readWriteMultipleRegisters readStart readQuantity writeStart
        values).Overruns s.size
    · rw [if_pos hover] at hadmissible
      constructor
      · rintro ⟨response, hok⟩
        cases hadmissible.symm.trans hok
      · rintro ⟨hwrite, hread⟩
        exact absurd hover (not_or.mpr ⟨Nat.not_lt.mpr hwrite.2, Nat.not_lt.mpr hread.2⟩)
    · rw [if_neg hover] at hadmissible
      rcases hadmissible with ⟨response, hok, -⟩
      rcases not_or.mp hover with ⟨hwrite, hread⟩
      exact ⟨fun _ => ⟨⟨hunit, Nat.not_lt.mp hwrite⟩, hunit, Nat.not_lt.mp hread⟩,
        fun _ => ⟨response, hok⟩⟩
  · rw [if_pos hunit] at hadmissible
    constructor
    · rintro ⟨response, hok⟩
      cases hadmissible.symm.trans hok
    · exact fun hadmits => absurd hadmits.1.1 hunit

/-- The word in a register after words were written from `start` on: the counter if it shows it,
the word written there, or the word that it held. -/
def wordAfter (s : DeviceSettings) (d : Device) (start : Nat) (values : List UInt16) (x : Nat) :
    Option UInt16 :=
  if x = s.counterAddress.toNat then some d.counter
  else if start ≤ x ∧ x < start + values.length then values[x - start]?
  else d.memory.cell? .holding x

/-- An admitted write leaves every register as `wordAfter` says. -/
theorem CounterAt.cell?_access_write {n : Nat} (hcounter : CounterAt s n d) (h : d.Realizes s)
    {unitId : UInt8} {writable : TableKind.holding.Writable} {start : UInt16}
    {values : List UInt16} (hadmits : s.Admits unitId start values.length) (x : Nat) :
    (d.access unitId (.write writable start values)).state.memory.cell? .holding x =
      wordAfter s d start.toNat values x := by
  have hmemory := (h.memory_access unitId (.write writable start values)).trans (if_pos hadmits)
  by_cases hx : x = s.counterAddress.toNat
  · subst hx
    rw [h.cell?_access_of_counterCell _ _ ⟨rfl, rfl⟩, wordAfter, if_pos rfl, hcounter.register_eq,
      hcounter.counter_eq]
  · have hshield : d.shields .holding x = false :=
      (h.shields_eq_false_iff .holding x).mpr fun hcell => hx hcell.2
    have hrange : start.toNat + values.length ≤ d.memory.size := by
      rw [h.size_eq]
      exact hadmits.2
    rw [hmemory, Memory.accessed, Memory.cell?_lay_self, wordAfter, if_neg hx]
    -- A register in the range lies inside the table, as the whole range does.
    by_cases hin : start.toNat ≤ x ∧ x < start.toNat + values.length
    · rw [if_pos hin, if_pos ⟨hin.1, hin.2, by omega, hshield⟩]
    · rw [if_neg hin, if_neg fun hall => hin ⟨hall.1, hall.2.1⟩]

/-- A request that is granted both of its ranges is answered with the words after its write. -/
theorem CounterAt.answer_serve_readWrite {n : Nat} (hcounter : CounterAt s n d)
    (h : d.Realizes s) {unitId : UInt8} {readStart readQuantity writeStart : UInt16}
    {values : List UInt16} (hwrite : s.Admits unitId writeStart values.length)
    (hread : s.Admits unitId readStart readQuantity.toNat) :
    ∃ words : List UInt16,
      (d.serve unitId (.readWriteMultipleRegisters readStart readQuantity writeStart
        values)).answer = .ok (.readWriteMultipleRegisters words) ∧
      words.length = readQuantity.toNat ∧
      ∀ i < readQuantity.toNat,
        words[i]? = wordAfter s d writeStart.toNat values (readStart.toNat + i) := by
  let write : Access .holding := .write (by decide) writeStart values
  have hwritten : (d.access unitId write).state.Realizes s := h.access unitId write
  have hanswer := (answer_handle d unitId write).trans (h.answer_access_of_admits hwrite)
  have hwords := hwritten.answer_read (k := .holding) hread
  refine ⟨(d.access unitId write).state.memory.window .holding readStart.toNat readQuantity.toNat,
    ?_, ?_, ?_⟩
  · rw [serve, answer_reply_andTry_of_ok hanswer, state_handle]
    exact answer_reply_of_ok ((answer_handle _ _ _).trans hwords) _
  · refine Memory.length_window _ _ _ ?_
    rw [hwritten.size_eq]
    exact hread.2
  · intro i hi
    rw [Memory.getElem?_window _ _ _ _ hi]
    exact hcounter.cell?_access_write h hwrite _

end Device

/-! ## One request for two -/

/-- On every device that can be reached, the request that writes and reads has the same outcome as a
request to write that is followed, if it was granted, by a request to read: the same answer but for
its name, the same device, and the same journal.  It is granted exactly when both of its ranges are,
and then each word it is answered with is the counter in the register that shows it, the word it
wrote in a register of its write, and else the word that was stored before. -/
theorem readWrite_eq_write_then_read {s : DeviceSettings} {d : Device} (h : d.ReachableFrom s)
    (unitId : UInt8) (readStart readQuantity writeStart : UInt16) (values : List UInt16)
    (hlength : values.length ≤ 65535) :
    let request : Request := .readWriteMultipleRegisters readStart readQuantity writeStart values
    d.serve unitId request =
        (d.serveHalves unitId readStart readQuantity writeStart values).map
          (Except.map Response.afterWrite) ∧
      ((∃ response, (d.serve unitId request).answer = .ok response) ↔
        s.Admits unitId writeStart values.length ∧
          s.Admits unitId readStart readQuantity.toNat) ∧
      ∀ response, (d.serve unitId request).answer = .ok response →
        ∃ words : List UInt16, response = .readWriteMultipleRegisters words ∧
          words.length = readQuantity.toNat ∧
          ∀ i < readQuantity.toNat,
            words[i]? =
              if readStart.toNat + i = s.counterAddress.toNat then some d.counter
              else if writeStart.toNat ≤ readStart.toNat + i ∧
                  readStart.toNat + i < writeStart.toNat + values.length then
                values[readStart.toNat + i - writeStart.toNat]?
              else d.memory.cell? .holding (readStart.toNat + i) := by
  intro request
  have hrealizes : d.Realizes s := h.realizes
  have hgranted := hrealizes.serve_readWrite_eq_ok_iff unitId readStart readQuantity writeStart
    values
  refine ⟨d.serve_readWrite_eq unitId readStart readQuantity writeStart hlength, hgranted, ?_⟩
  intro response hok
  obtain ⟨n, hcounter⟩ := h.counterAt
  rcases hgranted.mp ⟨response, hok⟩ with ⟨hwrite, hread⟩
  rcases hcounter.answer_serve_readWrite hrealizes hwrite hread with ⟨words, hwords, hlength, hall⟩
  exact ⟨words, Except.ok.inj (hok.symm.trans hwords), hlength, hall⟩

/-- Four registers are read after two of them were written over the counter, which is two: the
first is from before, the second shows the counter, the third was written, and the last was
seeded. -/
theorem own_write_read_beside_counter :
    let d := (fourCellDevice.run [.increment, .increment]).state
    d.ReachableFrom fourCells ∧ [6, 7].length ≤ 65535 ∧
      (d.serve 1 (.readWriteMultipleRegisters 0 4 1 [6, 7])).answer =
        .ok (.readWriteMultipleRegisters [0, 2, 7, 9]) ∧
      (d.serve 1 (.readWriteMultipleRegisters 0 4 1 [6, 7])).answer =
        (d.serveHalves 1 0 4 1 [6, 7]).answer.map Response.afterWrite ∧
      fourCells.Admits 1 1 2 ∧ fourCells.Admits 1 0 4 := by
  intro d
  have hreachable : d.ReachableFrom fourCells :=
    ⟨fourCellDevice, _, [.increment, .increment], create_fourCells, rfl⟩
  have hlength : [(6 : UInt16), 7].length ≤ 65535 := by decide
  have hanswer : (d.serve 1 (.readWriteMultipleRegisters 0 4 1 [6, 7])).answer =
      .ok (.readWriteMultipleRegisters [0, 2, 7, 9]) := rfl
  rcases readWrite_eq_write_then_read hreachable 1 0 4 1 [6, 7] hlength
    with ⟨hequal, hgranted, -⟩
  rcases hgranted.mp ⟨_, hanswer⟩ with ⟨hwrite, hread⟩
  exact ⟨hreachable, hlength, hanswer, congrArg Outcome.answer hequal, hwrite, hread⟩

end Fieldbus
