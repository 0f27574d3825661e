import Fieldbus.Wire.Connection

/-!
# Frames that are read back

The bytes of a frame are scanned as that frame, whatever stands behind them.  So a connection that
receives a frame answers it first, and serves the rest on the device that the answer leaves.
-/

namespace Fieldbus

/-! ## Words -/

theorem toNat_wordOf (high low : UInt8) :
    (wordOf high low).toNat = high.toNat * 256 + low.toNat := by
  have hhigh : high.toNat < 256 := high.toNat_lt
  have hlow : low.toNat < 256 := low.toNat_lt
  have hvalue : (wordOf high low).toNat = (high.toNat * 256 + low.toNat) % 65536 := rfl
  omega

/-- A word is read back from its two bytes. -/
theorem wordOf_wordBytes (w : UInt16) :
    wordOf (w.toNat / 256).toUInt8 (w.toNat % 256).toUInt8 = w := by
  have hw : w.toNat < 65536 := w.toNat_lt
  have hhigh : (w.toNat / 256).toUInt8.toNat = w.toNat / 256 % 256 := rfl
  have hlow : (w.toNat % 256).toUInt8.toNat = w.toNat % 256 % 256 := rfl
  refine UInt16.toNat_inj.mp ?_
  rw [toNat_wordOf, hhigh, hlow]
  omega

/-- Two bytes are written back as the bytes of their word. -/
theorem wordBytes_wordOf (high low : UInt8) : wordBytes (wordOf high low) = [high, low] := by
  have hhigh : high.toNat < 256 := high.toNat_lt
  have hlow : low.toNat < 256 := low.toNat_lt
  have hfirst : (wordOf high low).toNat / 256 = high.toNat := by
    rw [toNat_wordOf]
    omega
  have hsecond : (wordOf high low).toNat % 256 = low.toNat := by
    rw [toNat_wordOf]
    omega
  have hback (b : UInt8) : b.toNat.toUInt8 = b := UInt8.ofNat_toNat
  rw [wordBytes, hfirst, hsecond, hback, hback]

/-! ## Frames -/

namespace Frame

/-- A frame is read back from its bytes, and what stands behind them is left. -/
theorem scan_toBytes_append (f : Frame) (rest : List UInt8) (hsize : f.message.length < 65535) :
    scan (f.toBytes ++ rest) = .frame f rest := by
  have hbytes : f.toBytes ++ rest =
      (f.transaction.toNat / 256).toUInt8 :: (f.transaction.toNat % 256).toUInt8 ::
        ((0 : UInt16).toNat / 256).toUInt8 :: ((0 : UInt16).toNat % 256).toUInt8 ::
        ((f.message.length + 1).toUInt16.toNat / 256).toUInt8 ::
        ((f.message.length + 1).toUInt16.toNat % 256).toUInt8 ::
        f.unitId :: (f.message ++ rest) :=
    rfl
  rw [hbytes]
  have hlength : (f.message.length + 1).toUInt16.toNat = f.message.length + 1 := by
    have hmod : (f.message.length + 1).toUInt16.toNat = (f.message.length + 1) % 65536 := rfl
    omega
  have hread := (congrArg UInt16.toNat (wordOf_wordBytes (f.message.length + 1).toUInt16)).trans
    hlength
  have hall : ¬ (f.message ++ rest).length < f.message.length := by simp
  simp only [scan, hread]
  rw [if_neg hall, wordOf_wordBytes, wordOf_wordBytes, List.take_left, List.drop_left]
  exact if_neg (not_not_intro rfl)

/-- What is scanned as a frame and a rest are the bytes of the frame and the rest. -/
theorem toBytes_append_of_scan {bytes rest : List UInt8} {f : Frame}
    (hscan : scan bytes = .frame f rest) : f.toBytes ++ rest = bytes := by
  unfold scan at hscan
  split at hscan
  · rename_i t₁ t₀ p₁ p₀ l₁ l₀ unitId behind
    split at hscan
    · cases hscan
    · rename_i size hsize
      split at hscan
      · cases hscan
      · rename_i hall
        split at hscan
        · cases hscan
        · rename_i hprotocol
          cases hscan
          have hlength : ((behind.take size).length + 1).toUInt16 = wordOf l₁ l₀ := by
            rw [List.length_take_of_le (Nat.not_lt.mp hall)]
            exact (congrArg Nat.toUInt16 hsize).symm.trans UInt16.ofNat_toNat
          have hzero : wordBytes 0 = [p₁, p₀] := by
            rw [← Decidable.not_not.mp hprotocol, wordBytes_wordOf]
          simp only [toBytes, wordsBytes, List.flatMap_cons, List.flatMap_nil, hlength, hzero,
            wordBytes_wordOf, List.append_nil, List.cons_append, List.nil_append,
            List.take_append_drop]
  · cases hscan

end Frame

/-! ## Serving a frame -/

namespace Device

/-- A frame at the front of the bytes is answered, and a breach ends the service there. -/
theorem serveBytes_of_scan (d : Device) {bytes rest : List UInt8} {f : Frame}
    (hscan : Frame.scan bytes = .frame f rest) :
    d.serveBytes bytes =
      (d.answerFrame f).andThen fun answer d =>
        match answer with
        | .error reason => { answer := { breach := some reason }, state := d }
        | .ok answer =>
          (d.serveBytes rest).map fun later =>
            { later with sent := answer.toBytes ++ later.sent } := by
  rw [serveBytes]
  split
  · rename_i h
    rw [hscan] at h
    cases h
  · rename_i h
    rw [hscan] at h
    cases h
  · rename_i h
    rw [hscan] at h
    cases h
    rfl

end Device

end Fieldbus
