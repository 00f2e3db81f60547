import Citadel.Envelope.KemP384Bytes
import Citadel.Envelope.Sdk
import Citadel.Ffi.Memory

/-!
# The C interface

The functions behind the C ABI, for both suites. A pointer argument is absent when it is
null; what it points to is read once. Results go to the caller's output pointers, which
are cleared first. A panic, which the code does not provoke, is not modelled.
-/

namespace Citadel.Ffi

open Envelope

/-- The code of the C interface. -/
abbrev Code := Program Op Op.Ret Empty

/-- Do one thing. -/
abbrev exec (op : Op) : Code op.Ret := Program.call op

/-- The result codes. -/
inductive Status where
  | ok
  | errNull
  | errSeal
  | errOpen
  | errKey
  | errAlloc
  deriving DecidableEq, Repr

/-- `isize::MAX`, the largest layout. -/
def isizeMax : Nat := 9223372036854775807

/-- `alloc_buf`. -/
def allocBuf (size : Nat) : Code Address :=
  if size = 0 then .ret dangling
  else if isizeMax < size then .ret null
  else do
    let found ← exec (.alloc size)
    match found with
    | none => .ret null
    | some ptr =>
        exec (.insert ptr size)
        .ret ptr

/-- `write_output`. -/
def writeOutput (data : Bytes) (slot : Slot) : Code Status := do
  let buf ← allocBuf data.length
  if buf = null then .ret .errAlloc
  else
    exec (.copyNonoverlapping buf data)
    exec (.setOutput slot buf data.length)
    .ret .ok

/-- An engine of the SDK, with the byte forms of its keys. -/
structure Engine where
  crypto : Crypto
  provider : KemProvider
  publicKeyFromBytes : Bytes → Except DecryptionError provider.PublicKey
  secretKeyToBytes : provider.SecretKey → Bytes
  secretKeyFromBytes : Bytes → Except DecryptionError provider.SecretKey

/-- The engine `Citadel`. -/
def citadel (crypto : Crypto) : Engine where
  crypto := crypto
  provider := hybridX25519MlKem768Provider crypto
  publicKeyFromBytes := PublicKey.fromBytes crypto
  secretKeyToBytes := SecretKey.toBytes
  secretKeyFromBytes := SecretKey.fromBytes crypto

/-- The engine `CitadelP384`. -/
def citadelP384 (crypto : Crypto) {nist : NistCrypto} (encodings : NistEncodings nist) :
    Engine where
  crypto := crypto
  provider := hybridP384MlKem1024Provider nist
  publicKeyFromBytes := P384MlKem1024PublicKey.fromBytes encodings
  secretKeyToBytes := P384MlKem1024SecretKey.toBytes encodings
  secretKeyFromBytes := P384MlKem1024SecretKey.fromBytes encodings

/-- Which of the output pointers are there. -/
structure KeygenOutputs where
  pkOut : Bool
  pkLen : Bool
  skOut : Bool
  skLen : Bool
  deriving DecidableEq, Repr

/-- No output pointer is null. -/
def KeygenOutputs.present (outputs : KeygenOutputs) : Bool :=
  outputs.pkOut && outputs.pkLen && outputs.skOut && outputs.skLen

/-- Which of the two output pointers are there. -/
structure BufferOutputs where
  out : Bool
  len : Bool
  deriving DecidableEq, Repr

/-- No output pointer is null. -/
def BufferOutputs.present (outputs : BufferOutputs) : Bool :=
  outputs.out && outputs.len

/-- The key generation of an engine. -/
def keygenImpl (engine : Engine) (seed : engine.provider.Seed) (outputs : KeygenOutputs) :
    Code Status :=
  if outputs.present = false then .ret .errNull
  else do
    exec (.setOutput .first null 0)
    exec (.setOutput .second null 0)
    let (pk, sk) := engine.provider.keygen seed
    let rc ← writeOutput (engine.provider.publicKeyBytes pk) .first
    if rc ≠ .ok then .ret rc
    else writeOutput (engine.secretKeyToBytes sk) .second

/-- Sealing with an engine. Associated data and context may be null. -/
def sealImpl (engine : Engine) (coins : SealCoins engine.provider.Coins)
    (pk plaintext aad context : Option Bytes) (outputs : BufferOutputs) : Code Status :=
  match pk, plaintext with
  | some pkBytes, some plaintext =>
      if outputs.present = false then .ret .errNull
      else do
        exec (.setOutput .first null 0)
        match engine.publicKeyFromBytes pkBytes with
        | .error _ => .ret .errKey
        | .ok pk =>
            match Envelope.encrypt engine.crypto engine.provider coins pk plaintext
              (aad.getD []) (context.getD []) with
            | .error _ => .ret .errSeal
            | .ok ciphertext => writeOutput ciphertext .first
  | _, _ => .ret .errNull

/-- Opening with an engine. -/
def openImpl (engine : Engine) (sk ciphertext aad context : Option Bytes)
    (outputs : BufferOutputs) : Code Status :=
  match sk, ciphertext with
  | some skBytes, some ciphertext =>
      if outputs.present = false then .ret .errNull
      else do
        exec (.setOutput .first null 0)
        match engine.secretKeyFromBytes skBytes with
        | .error _ => .ret .errKey
        | .ok sk =>
            match Envelope.decrypt engine.crypto engine.provider sk ciphertext
              (aad.getD []) (context.getD []) with
            | .error _ => .ret .errOpen
            | .ok plaintext => writeOutput plaintext .first
  | _, _ => .ret .errNull

section Suites

variable (crypto : Crypto) {nist : NistCrypto} (encodings : NistEncodings nist)

/-- `citadel_keygen`. -/
def citadelKeygen (seed : KeygenSeed) (outputs : KeygenOutputs) : Code Status :=
  keygenImpl (citadel crypto) seed outputs

/-- `citadel_seal`. -/
def citadelSeal (coins : SealCoins EncapsulationCoins) (pk plaintext aad context : Option Bytes)
    (outputs : BufferOutputs) : Code Status :=
  sealImpl (citadel crypto) coins pk plaintext aad context outputs

/-- `citadel_open`. -/
def citadelOpen (sk ciphertext aad context : Option Bytes) (outputs : BufferOutputs) :
    Code Status :=
  openImpl (citadel crypto) sk ciphertext aad context outputs

/-- `citadel_p384_keygen`. -/
def citadelP384Keygen (seed : nist.P384SecretKey × SizedBytes 64) (outputs : KeygenOutputs) :
    Code Status :=
  keygenImpl (citadelP384 crypto encodings) seed outputs

/-- `citadel_p384_seal`. -/
def citadelP384Seal (coins : SealCoins (P384Coins nist)) (pk plaintext aad context : Option Bytes)
    (outputs : BufferOutputs) : Code Status :=
  sealImpl (citadelP384 crypto encodings) coins pk plaintext aad context outputs

/-- `citadel_p384_open`. -/
def citadelP384Open (sk ciphertext aad context : Option Bytes) (outputs : BufferOutputs) :
    Code Status :=
  openImpl (citadelP384 crypto encodings) sk ciphertext aad context outputs

end Suites

/-- `citadel_free`. The length that the caller gives is ignored. -/
def citadelFree (ptr : Address) (_len : Nat) : Code Unit := do
  exec (.callFree ptr)
  if ptr = null then .ret ()
  else
    let actualLen ← exec (.remove ptr)
    match actualLen with
    | none => .ret ()
    | some actualLen =>
        if actualLen = 0 then .ret ()
        else
          exec (.writeBytes ptr actualLen)
          if actualLen ≤ isizeMax then exec (.dealloc ptr actualLen)
          else .ret ()

end Citadel.Ffi
