import Overlay.FixedBytes

/-!
Keccak-256: the sponge over Keccak-f[1600] with a rate of 136 bytes and the padding byte `0x01`.
The state is 25 lanes of 64 bits; the lane of column `x` and row `y` stands at index `x + 5 * y`.
-/

set_option autoImplicit false

namespace Overlay.Keccak

abbrev Lanes := Vector UInt64 25

def rotateLeft (lane : UInt64) (count : Nat) : UInt64 :=
  if count % 64 = 0 then lane
  else lane <<< UInt64.ofNat (count % 64) ||| lane >>> UInt64.ofNat (64 - count % 64)

def lane (lanes : Lanes) (x y : Nat) : UInt64 :=
  lanes.get ⟨x % 5 + 5 * (y % 5), by omega⟩

def ofLanes (value : (x y : Nat) → UInt64) : Lanes :=
  Vector.ofFn fun index => value (index.val % 5) (index.val / 5)

def columnParity (lanes : Lanes) (x : Nat) : UInt64 :=
  lane lanes x 0 ^^^ lane lanes x 1 ^^^ lane lanes x 2 ^^^ lane lanes x 3 ^^^ lane lanes x 4

/-- Adds to every lane the parities of the two neighbouring columns. -/
def theta (lanes : Lanes) : Lanes :=
  let parity : Vector UInt64 5 := Vector.ofFn fun x => columnParity lanes x.val
  let effect : Vector UInt64 5 := Vector.ofFn fun x =>
    parity.get (x + 4) ^^^ rotateLeft (parity.get (x + 1)) 1
  ofLanes fun x y => lane lanes x y ^^^ effect.get ⟨x % 5, by omega⟩

def rotations : Vector Nat 25 :=
  #v[0, 1, 62, 28, 27, 36, 44, 6, 55, 20, 3, 10, 43, 25, 39, 41, 45, 15, 21, 8, 18, 2, 61, 56, 14]

/-- Rotates every lane by its own distance and moves it from `(x, y)` to `(y, 2x + 3y)`. -/
def rhoPi (lanes : Lanes) : Lanes :=
  ofLanes fun x y =>
    let column := (x + 3 * y) % 5
    rotateLeft (lane lanes column x) (rotations.get ⟨column + 5 * (x % 5), by omega⟩)

/-- Mixes every lane with the next two of its row. -/
def chi (lanes : Lanes) : Lanes :=
  ofLanes fun x y => lane lanes x y ^^^ (~~~ lane lanes (x + 1) y &&& lane lanes (x + 2) y)

def roundConstants : List UInt64 :=
  [0x0000000000000001, 0x0000000000008082, 0x800000000000808a, 0x8000000080008000,
   0x000000000000808b, 0x0000000080000001, 0x8000000080008081, 0x8000000000008009,
   0x000000000000008a, 0x0000000000000088, 0x0000000080008009, 0x000000008000000a,
   0x000000008000808b, 0x800000000000008b, 0x8000000000008089, 0x8000000000008003,
   0x8000000000008002, 0x8000000000000080, 0x000000000000800a, 0x800000008000000a,
   0x8000000080008081, 0x8000000000008080, 0x0000000080000001, 0x8000000080008008]

def round (lanes : Lanes) (constant : UInt64) : Lanes :=
  let mixed := chi (rhoPi (theta lanes))
  mixed.set 0 (mixed[0] ^^^ constant)

def permute (lanes : Lanes) : Lanes :=
  roundConstants.foldl round lanes

def rate : Nat := 136

/-- Extends a message to whole blocks: a first bit and a last bit around zeros. -/
def pad (message : Bytes) : Bytes :=
  match rate - message.length % rate with
  | 0 => message
  | 1 => message ++ [0x81]
  | gap + 2 => message ++ 0x01 :: List.replicate gap 0 ++ [0x80]

def littleEndian (bytes : Bytes) : UInt64 :=
  bytes.foldr (fun byte value => value <<< 8 ||| byte.toUInt64) 0

def addBlock (lanes : Lanes) (block : Bytes) : Lanes :=
  Vector.ofFn fun index => lanes[index] ^^^ littleEndian ((block.drop (8 * index.val)).take 8)

def absorb : (blocks : Nat) → Lanes → Bytes → Lanes
  | 0, lanes, _ => lanes
  | blocks + 1, lanes, input =>
    absorb blocks (permute (addBlock lanes (input.take rate))) (input.drop rate)

/-- The first 32 bytes of the lanes, least significant byte of a lane first. -/
def squeeze (lanes : Lanes) : Hash :=
  FixedBytes.ofFn fun index =>
    (lanes.get ⟨index.val / 8, by omega⟩ >>> UInt64.ofNat (8 * (index.val % 8))).toUInt8

end Overlay.Keccak

namespace Overlay

def keccak256 (message : Bytes) : Hash :=
  let input := Keccak.pad message
  Keccak.squeeze (Keccak.absorb (input.length / Keccak.rate) (Vector.replicate 25 0) input)

end Overlay
