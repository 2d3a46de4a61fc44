import SecurityFabric.ToMathlib.BlockChaining

/-! # Encrypting an identity number at login

`encodeDes` pads the bytes of a text to full blocks, encrypts them in chaining mode with the key as the initial block,
and writes the result in letters. `padNormal` adds zero bytes, and always at least one.
-/

namespace SecurityFabric

/-- What the libraries provide: the cipher under the key, the key as the first block, and `base64`. -/
structure DesLibrary where
  cipher : BlockChaining.Block 8 → BlockChaining.Block 8
  key : BlockChaining.Block 8
  base64 : List UInt8 → String
  base64_injective : Function.Injective base64
  base64_nil : base64 [] = ""

/-- The bytes of a text. -/
def utf8 (text : String) : List UInt8 := text.toList.flatMap String.utf8EncodeChar

namespace UserManagement

inductive DesCBCPadType where
  | pkcs5Padding
  | padNormal
deriving DecidableEq, Repr

def pkcs5Padding (ciphertext : List UInt8) (blockSize : Nat) : List UInt8 :=
  let padding := blockSize - ciphertext.length % blockSize
  ciphertext ++ List.replicate padding (UInt8.ofNat padding)

def padNormal (ciphertext : List UInt8) (blockSize : Nat) : List UInt8 :=
  ciphertext ++ List.replicate (blockSize - ciphertext.length % blockSize) 0

def encodeDes (library : DesLibrary) (src : String) (typ : DesCBCPadType) : String :=
  let data := match typ with
    | .pkcs5Padding => pkcs5Padding (utf8 src) 8
    | .padNormal => padNormal (utf8 src) 8
  library.base64 (BlockChaining.encrypt library.cipher library.key data)

end UserManagement

end SecurityFabric
