import ByteMachine.Byte

/-!
# Registers

Eight registers of one byte each. The last one is the stack pointer, by the convention of the
instructions that use the stack and not by any difference in kind: every instruction may name it.

An operand byte names a register only if it is below eight (`Register.ofByte?`).
-/

namespace ByteMachine

/-- The number of a register. -/
abbrev Register := Fin 8

namespace Register

/-- The register that an operand names, if there is one of that number. -/
def ofByte? (operand : Byte) : Option Register :=
  if h : operand.toNat < 8 then some ⟨operand.toNat, h⟩ else none

/-- The register that holds the stack pointer. -/
def stackPointer : Register := 7

/-- The name of a register. -/
def name (r : Register) : String :=
  "R" ++ toString r.val

/-- An operand names the register of its number. -/
theorem ofByte?_eq_some_iff {operand : Byte} {r : Register} :
    ofByte? operand = some r ↔ operand.toNat = r.val := by
  simp only [ofByte?]
  split
  · simp [Fin.ext_iff]
  · simp only [reduceCtorEq, false_iff]
    omega

/-- An operand that is not below eight names no register. -/
theorem ofByte?_eq_none_iff {operand : Byte} : ofByte? operand = none ↔ 8 ≤ operand.toNat := by
  simp [ofByte?]

end Register

/-- The content of all eight registers. -/
structure Registers where
  values : Vector Byte 8
deriving DecidableEq

namespace Registers

/-- All registers zero. -/
def zero : Registers := ⟨Vector.replicate 8 0⟩

/-- The content of register `r`. -/
def get (rs : Registers) (r : Register) : Byte :=
  getElem rs.values r.val r.isLt

/-- The registers after setting `r` to `value`. -/
def set (rs : Registers) (r : Register) (value : Byte) : Registers :=
  ⟨rs.values.set r.val value r.isLt⟩

/-- The contents in the order of the registers. -/
def toList (rs : Registers) : List Byte :=
  rs.values.toList

/-! ### Reading after setting -/

/-- Registers with the same contents are equal. -/
theorem ext_get {rs ss : Registers} (h : ∀ r, rs.get r = ss.get r) : rs = ss := by
  obtain ⟨xs⟩ := rs
  obtain ⟨ys⟩ := ss
  congr 1
  apply Vector.ext
  intro i hi
  exact h ⟨i, hi⟩

/-- What setting a register does to each of them. -/
theorem get_set (rs : Registers) (r s : Register) (v : Byte) :
    (rs.set r v).get s = if s = r then v else rs.get s := by
  simp only [get, set, Vector.getElem_set, Fin.ext_iff, eq_comm]

/-- A register holds what it was set to. -/
@[simp] theorem get_set_self (rs : Registers) (r : Register) (v : Byte) :
    (rs.set r v).get r = v := by
  simp [get_set]

/-- Setting a register leaves the others alone. -/
theorem get_set_of_ne (rs : Registers) {r s : Register} (v : Byte) (h : s ≠ r) :
    (rs.set r v).get s = rs.get s := by
  simp [get_set, h]

end Registers

end ByteMachine
