import Mathlib.Tactic.IntervalCases
import ToolLayer.Python.Utf8
import ToolLayer.Python.Unicode

/-! SHA-256 over byte lists, with the words as numbers below `2 ^ 32`. -/
namespace Python.Sha256

def word : Nat := 0x100000000

def rotr (x n : Nat) : Nat := ((x >>> n) ||| (x <<< (32 - n))) % word

def bigSigma0 (x : Nat) : Nat := (rotr x 2).xor ((rotr x 13).xor (rotr x 22))
def bigSigma1 (x : Nat) : Nat := (rotr x 6).xor ((rotr x 11).xor (rotr x 25))
def smallSigma0 (x : Nat) : Nat := (rotr x 7).xor ((rotr x 18).xor (x >>> 3))
def smallSigma1 (x : Nat) : Nat := (rotr x 17).xor ((rotr x 19).xor (x >>> 10))
def choose (x y z : Nat) : Nat := (x &&& y).xor ((word - 1 - x) &&& z)
def majority (x y z : Nat) : Nat := (x &&& y).xor ((x &&& z).xor (y &&& z))

def roundConstants : List Nat := [
  0x428a2f98,0x71374491,0xb5c0fbcf,0xe9b5dba5,0x3956c25b,0x59f111f1,0x923f82a4,0xab1c5ed5,
  0xd807aa98,0x12835b01,0x243185be,0x550c7dc3,0x72be5d74,0x80deb1fe,0x9bdc06a7,0xc19bf174,
  0xe49b69c1,0xefbe4786,0x0fc19dc6,0x240ca1cc,0x2de92c6f,0x4a7484aa,0x5cb0a9dc,0x76f988da,
  0x983e5152,0xa831c66d,0xb00327c8,0xbf597fc7,0xc6e00bf3,0xd5a79147,0x06ca6351,0x14292967,
  0x27b70a85,0x2e1b2138,0x4d2c6dfc,0x53380d13,0x650a7354,0x766a0abb,0x81c2c92e,0x92722c85,
  0xa2bfe8a1,0xa81a664b,0xc24b8b70,0xc76c51a3,0xd192e819,0xd6990624,0xf40e3585,0x106aa070,
  0x19a4c116,0x1e376c08,0x2748774c,0x34b0bcb5,0x391c0cb3,0x4ed8aa4a,0x5b9cca4f,0x682e6ff3,
  0x748f82ee,0x78a5636f,0x84c87814,0x8cc70208,0x90befffa,0xa4506ceb,0xbef9a3f7,0xc67178f2]

structure State where
  a : Nat
  b : Nat
  c : Nat
  d : Nat
  e : Nat
  f : Nat
  g : Nat
  h : Nat

def initial : State := ⟨0x6a09e667,0xbb67ae85,0x3c6ef372,0xa54ff53a,
  0x510e527f,0x9b05688c,0x1f83d9ab,0x5be0cd19⟩

/-- The message schedule, newest word first. -/
def extend : Nat → List Nat → List Nat
  | 0, recent => recent
  | n + 1, recent =>
    let next := (smallSigma1 (recent.getD 1 0) + recent.getD 6 0 + smallSigma0 (recent.getD 14 0) +
      recent.getD 15 0) % word
    extend n (next::recent)

def round (s : State) (k w : Nat) : State :=
  let t1 := (s.h + bigSigma1 s.e + choose s.e s.f s.g + k + w) % word
  let t2 := (bigSigma0 s.a + majority s.a s.b s.c) % word
  ⟨(t1 + t2) % word,s.a,s.b,s.c,(s.d + t1) % word,s.e,s.f,s.g⟩

def rounds : State → List Nat → List Nat → State
  | s, k::ks, w::ws => rounds (round s k w) ks ws
  | s, _, _ => s

def compress (s : State) (block : List Nat) : State :=
  let t := rounds s roundConstants (extend 48 block.reverse).reverse
  ⟨(s.a + t.a) % word,(s.b + t.b) % word,(s.c + t.c) % word,(s.d + t.d) % word,
    (s.e + t.e) % word,(s.f + t.f) % word,(s.g + t.g) % word,(s.h + t.h) % word⟩

def words : List Nat → List Nat
  | a::b::c::d::rest => (((a * 256 + b) * 256 + c) * 256 + d) :: words rest
  | _ => []

def absorb : Nat → State → List Nat → State
  | 0, s, _ => s
  | n + 1, s, ws => absorb n (compress s (ws.take 16)) (ws.drop 16)

def pad (data : List Nat) : List Nat :=
  let zeros := (119 - data.length % 64) % 64
  let bits := 8 * data.length
  data ++ 0x80 :: (List.replicate zeros 0 ++ (List.range 8).map (fun i => bits / 256 ^ (7 - i) % 256))

def digestWords (data : Bytes) : List Nat :=
  let padded := pad (data.map Fin.val)
  let s := absorb (padded.length / 64) initial (words padded)
  [s.a,s.b,s.c,s.d,s.e,s.f,s.g,s.h]

/-- `hashlib.sha256(data).hexdigest()`. -/
def hexdigest (data : Bytes) : Str := (digestWords data).flatMap (Str.hex 8)

theorem length_hexdigest (data : Bytes) : (hexdigest data).length = 64 := by
  simp [hexdigest,digestWords,Str.hex]

theorem isHex_of_mem_hexdigest {data : Bytes} {c : CodePoint} (member : c ∈ hexdigest data) :
    c.isHex = true := by
  obtain ⟨w,_,digit⟩ := List.mem_flatMap.mp member
  obtain ⟨i,_,rfl⟩ := List.mem_map.mp digit
  have bound : w / 16 ^ (8 - 1 - i) % 16 < 16 := Nat.mod_lt _ (by omega)
  generalize w / 16 ^ (8 - 1 - i) % 16 = n at bound
  interval_cases n <;> decide

example : hexdigest (Utf8.bytes "abc") =
    "ba7816bf8f01cfea414140de5dae2223b00361a396177a9cb410ff61f20015ad" := by decide +kernel

end Python.Sha256
