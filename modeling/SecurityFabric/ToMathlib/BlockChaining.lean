import Mathlib.Data.List.OfFn

/-! # Block ciphers in chaining mode

In chaining mode each block is mixed with the one that was put out before it, the first with an initial block. What
comes out has as many bytes as the full blocks that went in, whatever the cipher does.
-/

namespace SecurityFabric.BlockChaining

open List

variable {size : Nat}

/-- As many bytes as the size says. -/
abbrev Block (size : Nat) : Type := Fin size → UInt8

/-- The full blocks of the data. -/
def blocks (size : Nat) (data : List UInt8) : List (Block size) :=
  (List.range (data.length / size)).map fun i j => data.getD (size * i + j) 0

variable (cipher : Block size → Block size) (initial : Block size) (data : List UInt8)

/-- The blocks put out for blocks put in, behind a block put out before. -/
def chain : Block size → List (Block size) → List (Block size)
  | _, [] => []
  | before, block :: rest =>
    let out := cipher fun j => block j ^^^ before j
    out :: chain out rest

def encrypt : List UInt8 := (chain cipher initial (blocks size data)).flatMap ofFn

theorem length_chain (before : Block size) (input : List (Block size)) :
    (chain cipher before input).length = input.length := by
  induction input generalizing before with
  | nil => rfl
  | cons block rest ih =>
    rw [chain, length_cons, length_cons, ih]

theorem length_encrypt : (encrypt cipher initial data).length = data.length / size * size := by
  simp [encrypt, map_const', length_chain, blocks]

end SecurityFabric.BlockChaining
