import NutContainer.Checksum

/-! A message followed by its own checksum leaves nothing over. This is the one
fact about the checksum that a reader of intact data relies on: whatever was
summed when it was written is found intact when it is read. -/
namespace NutContainer.Checksum

private theorem get_ofFn (f : Fin n → α) (i : Fin n) : (Vector.ofFn f).get i = f i := by
  simp only [Vector.get, Vector.toArray_ofFn, Array.getElem_ofFn]
  congr 1

/-- The table holds what eight single-bit steps leave of a byte. -/
theorem table_get (byte : UInt8) : table.get byte.toFin = tableEntry byte := by
  have same : UInt8.ofNat byte.toFin.val = byte :=
    UInt8.toNat_inj.mp (Nat.mod_eq_of_lt byte.toFin.isLt)
  rw [table, get_ofFn, same]

/-- A byte that equals the top of the register only moves the register on. -/
theorem step_top (register : UInt32) :
    step register (register >>> 24).toUInt8 = register <<< 8 := by
  have cleared : tableEntry 0 = 0 := by decide
  rw [step, UInt8.xor_self, table_get, cleared, UInt32.xor_zero]

/-- The register after the byte of `word` at the given place, when it held the
lower bytes of `word` from that place on. -/
private theorem step_byte (register : UInt32) (word place : Nat)
    (held : register.toNat >>> 24 = word >>> (8 * place) % 256) :
    step register (UInt8.ofNat (word >>> (8 * place))) = register <<< 8 := by
  have top : UInt8.ofNat (word >>> (8 * place)) = (register >>> 24).toUInt8 := by
    apply UInt8.toNat_inj.mp
    simp only [UInt8.toNat_ofNat', UInt32.toNat_toUInt8, UInt32.toNat_shiftRight,
      UInt32.toNat_ofNat, Nat.reducePow, Nat.reduceMod, held, Nat.mod_mod]
  rw [top, step_top]

/-- Going on over the four bytes of the register itself clears it. -/
theorem update_self (register : UInt32) : update register (.ofWord32 register) = 0 := by
  have bound := register.toNat_lt
  have first := step_byte register register.toNat 3 (by omega)
  have second := step_byte (register <<< 8) register.toNat 2 (by
    simp [UInt32.toNat_shiftLeft, Nat.shiftLeft_eq]
    omega)
  have third := step_byte (register <<< 8 <<< 8) register.toNat 1 (by
      simp [UInt32.toNat_shiftLeft, Nat.shiftLeft_eq]
      omega)
  have fourth := step_byte (register <<< 8 <<< 8 <<< 8) register.toNat 0 (by
      simp [UInt32.toNat_shiftLeft, Nat.shiftLeft_eq]
      omega)
  simp only [Bytes.ofWord32, Bytes.ofNat, update, List.foldl_cons, List.foldl_nil, first, second,
    third, fourth]
  apply UInt32.toNat_inj.mp
  simp [UInt32.toNat_shiftLeft, Nat.shiftLeft_eq]
  omega

/-- What was summed when it was written is intact when it is read. -/
theorem isIntact_append_sum (message : Bytes) :
    IsIntact (message ++ .ofWord32 (ofBytes message)) := by
  unfold IsIntact
  rw [ofBytes, update_append]
  exact update_self (ofBytes message)

end NutContainer.Checksum
