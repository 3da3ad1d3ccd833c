import Mathlib.Data.List.Basic
import Mathlib.Tactic.Common

/-! # Transport commands

Both directions of the application's transport carry packets: a little-endian
16-bit command, whose low bits are an opcode and whose high bits a length or an
exit code, and then a payload.
-/

namespace X86OnArm.Muvm

abbrev Byte := UInt8

def cmdShift : Nat := 2

def cmdMask : UInt16 := 3

/-- `(value << CMD_SHIFT) as u16 | opc`. -/
def packCommand (opc : UInt16) (value : Nat) : UInt16 := UInt16.ofNat (value <<< cmdShift) ||| opc

/-- `cmd & CMD_MASK`. -/
def opcode (cmd : UInt16) : UInt16 := cmd &&& cmdMask

/-- `cmd as usize >> CMD_SHIFT`. -/
def operand (cmd : UInt16) : Nat := cmd.toNat >>> cmdShift

/-- The opcodes of a direction are numbered from 0. -/
theorem toNat_zero_lt_four : (0 : UInt16).toNat < 4 := by decide

theorem toNat_one_lt_four : (1 : UInt16).toNat < 4 := by decide

theorem zero_ne_one_opcode : (0 : UInt16) ≠ 1 := by decide

/-- The values a command can carry beside its opcode. -/
def operandBound : Nat := 16384

theorem packCommand_toNat {opc : UInt16} (small : opc.toNat < 4) {count : Nat}
    (fits : count < operandBound) : (packCommand opc count).toNat = count * 4 + opc.toNat := by
  have shifted : count <<< cmdShift = count * 4 := Nat.shiftLeft_eq _ _
  have noOverflow : count * 4 < 2 ^ 16 := by
    unfold operandBound at fits
    omega
  have combined : count <<< cmdShift ||| opc.toNat = count <<< cmdShift + opc.toNat :=
    (Nat.shiftLeft_add_eq_or_of_lt (i := 2) small count).symm
  unfold packCommand
  rw [UInt16.toNat_or, UInt16.toNat_ofNat', shifted, Nat.mod_eq_of_lt noOverflow, ← shifted,
    combined, shifted]

/-- A two-bit opcode is read back whatever is packed beside it. -/
theorem opcode_packCommand {opc : UInt16} (small : opc.toNat < 4) {count : Nat}
    (fits : count < operandBound) : opcode (packCommand opc count) = opc := by
  apply UInt16.toNat_inj.mp
  unfold opcode
  rw [UInt16.toNat_and, packCommand_toNat small fits]
  have masked : (count * 4 + opc.toNat) &&& 3 = (count * 4 + opc.toNat) % 4 :=
    Nat.and_two_pow_sub_one_eq_mod _ 2
  refine masked.trans ?_
  omega

/-- A length below the bound is not truncated. -/
theorem operand_packCommand {opc : UInt16} (small : opc.toNat < 4) {count : Nat}
    (fits : count < operandBound) : operand (packCommand opc count) = count := by
  unfold operand
  rw [packCommand_toNat small fits, Nat.shiftRight_eq_div_pow]
  change (count * 4 + opc.toNat) / 4 = count
  omega

/-- `cmd.to_le_bytes()`. -/
def toLeBytes (cmd : UInt16) : List Byte :=
  [UInt8.ofNat (cmd.toNat % 256), UInt8.ofNat (cmd.toNat / 256)]

/-- `u16::from_le_bytes([low, high])`. -/
def fromLeBytes (low high : Byte) : UInt16 := UInt16.ofNat (low.toNat + 256 * high.toNat)

theorem toLeBytes_length (cmd : UInt16) : (toLeBytes cmd).length = 2 := rfl

theorem fromLeBytes_toLeBytes (cmd : UInt16) :
    fromLeBytes (UInt8.ofNat (cmd.toNat % 256)) (UInt8.ofNat (cmd.toNat / 256)) = cmd := by
  have bound : cmd.toNat < 65536 := cmd.toNat_lt
  apply UInt16.toNat_inj.mp
  unfold fromLeBytes
  rw [UInt16.toNat_ofNat', UInt8.toNat_ofNat', UInt8.toNat_ofNat']
  omega

/-- A command and the payload that follows it. -/
structure Packet where
  cmd : UInt16
  payload : List Byte
  deriving DecidableEq

def Packet.bytes (packet : Packet) : List Byte := toLeBytes packet.cmd ++ packet.payload

end X86OnArm.Muvm
