import Mathlib

/-!
# BIP32 keys over an abstract curve

The descriptor code of the wallet reads `bitcoin::bip32` extended keys, their networks,
fingerprints and public derivation. The elliptic-curve arithmetic behind them is not
modelled: `SecpCtx` bundles it as plain functions, in the place of the `secp` context the
source passes to every call, and every theorem of the development holds for every
context.

Public derivation fails exactly on a hardened step. The other failures of `CKDpub` and
`CKDpriv` (a tweak outside the curve order) happen with probability about `2^-127`, and
`miniscript` itself treats them as "cryptographically unreachable"; the model makes
normal derivation total.

## Main definitions

* `Network`, `NetworkKind` and `Network.kind`.
* `ChildNumber`, decoded from its `u32` encoding, and `DerivationPath`.
* `SecpCtx`, the curve provider.
* `Xpub.derivePub`, `Xpriv.derivePriv`, `Xpub.fromPriv` and the fingerprints.
-/

namespace BdkWallet

/-! ## Networks -/

/-- `bitcoin::NetworkKind`: the network an extended key is encoded for. -/
inductive NetworkKind where
  | main
  | test
deriving DecidableEq, Repr

/-- `bitcoin::Network`. -/
inductive Network where
  | bitcoin
  | testnet
  | testnet4
  | signet
  | regtest
deriving DecidableEq, Repr

/-- `impl From<Network> for NetworkKind`: only the main network is `Main`. -/
def Network.kind : Network → NetworkKind
  | .bitcoin => .main
  | _ => .test

/-! ## Child numbers and paths -/

/-- `bip32::ChildNumber`, as decoded from a `u32`: both kinds carry an index below `2^31`,
so no value of this type is out of range. -/
inductive ChildNumber where
  | normal (index : Fin (2 ^ 31))
  | hardened (index : Fin (2 ^ 31))
deriving DecidableEq, Repr

namespace ChildNumber

/-- `ChildNumber::is_hardened`. -/
def isHardened : ChildNumber → Bool
  | normal _ => false
  | hardened _ => true

/-- `ChildNumber::is_normal`. -/
def isNormal (c : ChildNumber) : Bool := !c.isHardened

@[simp] theorem isHardened_normal (i : Fin (2 ^ 31)) : (normal i).isHardened = false := rfl
@[simp] theorem isHardened_hardened (i : Fin (2 ^ 31)) : (hardened i).isHardened = true := rfl
@[simp] theorem isNormal_eq (c : ChildNumber) : c.isNormal = !c.isHardened := rfl

end ChildNumber

/-- `bip32::DerivationPath`, a sequence of child numbers from a parent key. -/
abbrev DerivationPath := List ChildNumber

/-- `bip32::Fingerprint`: four bytes identifying a key. -/
structure Fingerprint where
  bytes : Nat
deriving DecidableEq, Repr

/-- `bip32::ChainCode`. -/
structure ChainCode where
  bytes : Nat
deriving DecidableEq, Repr

/-- `bip32::Error`, the variants public derivation and index decoding produce. -/
inductive Bip32Error where
  | cannotDeriveFromHardenedKey
  | invalidChildNumber (index : Nat)
deriving DecidableEq, Repr

/-- `ChildNumber::from_normal_idx`: an index at or above `2^31` is refused. -/
def ChildNumber.fromNormalIdx (index : Nat) : Except Bip32Error ChildNumber :=
  if h : index < 2 ^ 31 then .ok (.normal ⟨index, h⟩) else .error (.invalidChildNumber index)

/-- `ChildNumber::from_hardened_idx`. -/
def ChildNumber.fromHardenedIdx (index : Nat) : Except Bip32Error ChildNumber :=
  if h : index < 2 ^ 31 then .ok (.hardened ⟨index, h⟩) else .error (.invalidChildNumber index)

theorem ChildNumber.fromNormalIdx_of_lt {index : Nat} (h : index < 2 ^ 31) :
    fromNormalIdx index = .ok (.normal ⟨index, h⟩) := dif_pos h

/-! ## The curve provider -/

namespace Secp256k1

/-- `secp256k1::PublicKey`: a curve point, identified by a number. -/
structure PublicKey where
  point : Nat
deriving DecidableEq, Repr

/-- `secp256k1::XOnlyPublicKey`: the x coordinate of a point. -/
structure XOnlyPublicKey where
  x : Nat
deriving DecidableEq, Repr

/-- `secp256k1::SecretKey`: a scalar. -/
structure SecretKey where
  scalar : Nat
deriving DecidableEq, Repr

instance : LT PublicKey := ⟨fun a b => a.point < b.point⟩
instance : DecidableRel (α := PublicKey) (· < ·) := fun a b => Nat.decLt a.point b.point
instance : LT XOnlyPublicKey := ⟨fun a b => a.x < b.x⟩
instance : DecidableRel (α := XOnlyPublicKey) (· < ·) := fun a b => Nat.decLt a.x b.x

end Secp256k1

open Secp256k1 in
/-- The `secp` context: the curve operations that key derivation and fingerprints use. -/
structure SecpCtx where
  /-- `CKDpub` on a point and chain code, for a normal index. -/
  ckdPub : PublicKey → ChainCode → Fin (2 ^ 31) → PublicKey × ChainCode
  /-- `CKDpriv` on a scalar and chain code, for either kind of child number. -/
  ckdPriv : SecretKey → ChainCode → ChildNumber → SecretKey × ChainCode
  /-- Multiplication of the generator by a scalar. -/
  publicKey : SecretKey → PublicKey
  /-- The first four bytes of `hash160` of the serialized point. -/
  fingerprint : PublicKey → Fingerprint
  /-- `XOnlyPublicKey::from`: drop the parity of a point. -/
  xOnly : PublicKey → XOnlyPublicKey
  /-- `XOnlyPublicKey::public_key(Parity::Even)`: the point with even y. -/
  evenKey : XOnlyPublicKey → PublicKey

/-! ## Single keys -/

/-- `bitcoin::PublicKey`: a point with its serialization flag. -/
structure PublicKey where
  compressed : Bool
  inner : Secp256k1.PublicKey
deriving DecidableEq, Repr

/-- `PublicKey::new`: a compressed key. -/
def PublicKey.new (pk : Secp256k1.PublicKey) : PublicKey := ⟨true, pk⟩

theorem PublicKey.new_injective : Function.Injective PublicKey.new := by
  intro a b h
  cases h
  rfl

/-- `bitcoin::PrivateKey`. -/
structure PrivateKey where
  compressed : Bool
  network : NetworkKind
  inner : Secp256k1.SecretKey
deriving DecidableEq, Repr

/-- `PrivateKey::public_key`; it does not read the network. -/
def PrivateKey.publicKey (secp : SecpCtx) (sk : PrivateKey) : PublicKey :=
  ⟨sk.compressed, secp.publicKey sk.inner⟩

/-! ## Extended keys -/

/-- `bip32::Xpub`. Depth, parent fingerprint and child number are not read by any
modelled function and are left out. -/
structure Xpub where
  network : NetworkKind
  publicKey : Secp256k1.PublicKey
  chainCode : ChainCode
deriving DecidableEq, Repr

/-- `bip32::Xpriv`, with the same fields left out as for `Xpub`. -/
structure Xpriv where
  network : NetworkKind
  privateKey : Secp256k1.SecretKey
  chainCode : ChainCode
deriving DecidableEq, Repr

namespace Xpub

/-- `Xpub::fingerprint`. -/
def fingerprint (secp : SecpCtx) (x : Xpub) : Fingerprint := secp.fingerprint x.publicKey

/-- `Xpub::ckd_pub`: public derivation refuses a hardened step. -/
def ckdPub (secp : SecpCtx) (x : Xpub) : ChildNumber → Except Bip32Error Xpub
  | .hardened _ => .error .cannotDeriveFromHardenedKey
  | .normal i =>
    let child := secp.ckdPub x.publicKey x.chainCode i
    .ok { x with publicKey := child.1, chainCode := child.2 }

/-- `Xpub::derive_pub`: `ckd_pub` along the path, stopping at the first error. -/
def derivePub (secp : SecpCtx) (x : Xpub) : DerivationPath → Except Bip32Error Xpub
  | [] => .ok x
  | c :: cs => x.ckdPub secp c >>= fun y => y.derivePub secp cs

/-- `Xpub::from_priv`. -/
def fromPriv (secp : SecpCtx) (x : Xpriv) : Xpub :=
  ⟨x.network, secp.publicKey x.privateKey, x.chainCode⟩

end Xpub

namespace Xpriv

/-- `Xpriv::ckd_priv`. -/
def ckdPriv (secp : SecpCtx) (x : Xpriv) (c : ChildNumber) : Xpriv :=
  let child := secp.ckdPriv x.privateKey x.chainCode c
  { x with privateKey := child.1, chainCode := child.2 }

/-- `Xpriv::derive_priv`. -/
def derivePriv (secp : SecpCtx) (x : Xpriv) (path : DerivationPath) : Xpriv :=
  path.foldl (ckdPriv secp) x

/-- `Xpriv::fingerprint`, through the public key. -/
def fingerprint (secp : SecpCtx) (x : Xpriv) : Fingerprint :=
  (Xpub.fromPriv secp x).fingerprint secp

end Xpriv

/-! ## Derivation -/

namespace Xpub

variable (secp : SecpCtx)

@[simp] theorem derivePub_nil (x : Xpub) : x.derivePub secp [] = .ok x := rfl

@[simp] theorem derivePub_cons (x : Xpub) (c : ChildNumber) (cs : DerivationPath) :
    x.derivePub secp (c :: cs) = x.ckdPub secp c >>= fun y => y.derivePub secp cs := rfl

@[simp] theorem ckdPub_hardened (x : Xpub) (i : Fin (2 ^ 31)) :
    x.ckdPub secp (.hardened i) = .error .cannotDeriveFromHardenedKey := rfl

/-- **Public derivation succeeds on every path without a hardened step.** -/
theorem derivePub_ok_of_normal (x : Xpub) (p : DerivationPath)
    (hp : ∀ c ∈ p, c.isHardened = false) : ∃ y, x.derivePub secp p = .ok y := by
  induction p generalizing x with
  | nil => exact ⟨x, rfl⟩
  | cons c cs ih =>
    cases c with
    | hardened i => nomatch hp _ (List.mem_cons_self _ _)
    | normal i => exact ih _ fun c hc => hp c (List.mem_cons_of_mem _ hc)

/-- Derivation keeps the network, and the derived point and chain code do not depend on
it. -/
theorem derivePub_network (x : Xpub) (n : NetworkKind) (p : DerivationPath) :
    { x with network := n }.derivePub secp p =
      (x.derivePub secp p).map fun y => { y with network := n } := by
  induction p generalizing x with
  | nil => rfl
  | cons c cs ih =>
    cases c with
    | hardened i => rfl
    | normal i => exact ih ⟨x.network, _, _⟩

end Xpub

/-- Private derivation keeps the network and does not read it. -/
theorem Xpriv.derivePriv_network (secp : SecpCtx) (x : Xpriv) (n : NetworkKind)
    (p : DerivationPath) :
    { x with network := n }.derivePriv secp p = { x.derivePriv secp p with network := n } := by
  induction p generalizing x with
  | nil => rfl
  | cons c cs ih => exact ih ⟨x.network, _, _⟩

/-! ## A context for running the model -/

/-- A context over small numbers with no curve behind it: a child point encodes its parent
and its index, and a point is its own fingerprint and x coordinate. It runs the model on
concrete keys; no general theorem assumes anything of the context. -/
def SecpCtx.sample : SecpCtx where
  ckdPub pk cc i := (⟨pk.point * 2 ^ 32 + i.val + 1⟩, cc)
  ckdPriv sk cc c := match c with
    | .normal i => (⟨sk.scalar * 2 ^ 32 + i.val + 1⟩, cc)
    | .hardened i => (⟨sk.scalar * 2 ^ 32 + 2 ^ 31 + i.val + 1⟩, cc)
  publicKey sk := ⟨sk.scalar⟩
  fingerprint pk := ⟨pk.point⟩
  xOnly pk := ⟨pk.point⟩
  evenKey x := ⟨x.x⟩

end BdkWallet
