import NutContainer.Bytes

/-!
The 32-bit cyclic checksum that protects packets and frame headers: remainder
modulo the polynomial `0x04C11DB7`, most significant bit first, starting from
zero and with nothing folded in at the end. Under this rule a message followed
by its own checksum has checksum zero, which is how a reader verifies it.

The register advances a byte at a time through a table. A table entry is by
definition eight single-bit steps, so the table holds no constants of its own.
-/
namespace NutContainer.Checksum

/-- The divisor without its leading term. -/
def polynomial : UInt32 := 0x04C11DB7

/-- Moves the register by one bit, taking the divisor off when a one falls out
at the top. -/
def shift (register : UInt32) : UInt32 :=
  if register &&& 0x80000000 = 0 then register <<< 1 else (register <<< 1) ^^^ polynomial

/-- What one byte leaves behind: eight bit steps from the top of the register. -/
def tableEntry (byte : UInt8) : UInt32 :=
  Nat.repeat shift 8 (byte.toUInt32 <<< 24)

/-- All table entries, by byte. -/
def table : Vector UInt32 256 := Vector.ofFn fun i => tableEntry (UInt8.ofNat i.val)

/-- Moves the register by one byte of the message. -/
def step (register : UInt32) (byte : UInt8) : UInt32 :=
  (register <<< 8) ^^^ table.get ((register >>> 24).toUInt8 ^^^ byte).toFin

/-- Continues a checksum over further bytes. A message may be handed over in
any number of pieces. -/
def update (register : UInt32) (bytes : Bytes) : UInt32 := bytes.foldl step register

/-- The checksum of a whole message. -/
def ofBytes (bytes : Bytes) : UInt32 := update 0 bytes

/-- A message with its checksum at the end has nothing left over. -/
def IsIntact (bytes : Bytes) : Prop := ofBytes bytes = 0

instance (bytes : Bytes) : Decidable (IsIntact bytes) := inferInstanceAs (Decidable (_ = _))

@[simp] theorem update_nil (register : UInt32) : update register [] = register := rfl

theorem update_append (register : UInt32) (front back : Bytes) :
    update register (front ++ back) = update (update register front) back := by
  simp [update]

end NutContainer.Checksum
