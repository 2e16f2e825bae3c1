/-
# Deferral.Number.Power -- powers of two and of ten

Doubles count in powers of two, and decimal text in powers of ten.
-/

namespace Deferral

/-- A power of two. -/
def twoTo (exponent : Nat) : Nat := Nat.pow 2 exponent

/-- A power of ten. -/
def tenTo (exponent : Nat) : Nat := Nat.pow 10 exponent

theorem twoTo_succ (exponent : Nat) : twoTo (exponent + 1) = 2 * twoTo exponent :=
  Nat.mul_comm ..

theorem tenTo_succ (exponent : Nat) : tenTo (exponent + 1) = 10 * tenTo exponent :=
  Nat.mul_comm ..

theorem twoTo_pos (exponent : Nat) : 0 < twoTo exponent := Nat.pow_pos (by decide)

/-- The last `width` binary digits of a number. -/
def lowBits (width n : Nat) : Fin (twoTo width) := ⟨n % twoTo width, Nat.mod_lt _ (twoTo_pos width)⟩

end Deferral
