import BdkWallet.Miniscript.Descriptor

/-!
# Recovering the derivation index of a spent input

`DescriptorMeta` and `XKeyUtils` of the wallet's `descriptor` module. The matcher
`derive_from_psbt_input` looks for the index at which the wallet's descriptor produced the
input being spent: first in the input's BIP32 key origins, then in its taproot key
origins, and for a descriptor without wildcard by comparing scripts at index 0.

The Rust code can panic: `verify_key` calls `expect` on a public derivation, and the
results of `at_derivation_index`, `explicit_script` and the spent output are unwrapped. A
panic is the error of `Except Panic`, with the message the code gives; the matcher's own
answer is the `Option` inside.

## Main definitions

* `DescriptorXKey.rootFingerprint`.
* `verifyKey`, `derivePathOf`, `acceptedIndex` and `matchKey`: the parts of the closure
  that `derive_from_psbt_key_origins` hands to `for_any_key`.
* `deriveFromPsbtKeyOrigins`, `deriveFromHdKeypaths`, `deriveFromTapKeyOrigins` and
  `deriveFromPsbtInput`.
-/

namespace BdkWallet

/-! ## Panics -/

/-- A Rust panic, with the message of the `expect` or `unwrap` that raised it. -/
structure Panic where
  message : String
deriving DecidableEq, Repr

/-- `Result::expect`. The panic records only the message argument: the ": " and the error's
debug form that Rust appends to it are left out, so a theorem about a panic's message speaks of
that argument only. -/
def expect {ε α : Type} (r : Except ε α) (message : String) : Except Panic α :=
  match r with
  | .ok a => .ok a
  | .error _ => .error ⟨message⟩

/-- `Option::unwrap`. -/
def unwrap {α : Type} : Option α → Except Panic α
  | some a => .ok a
  | none => .error ⟨"called `Option::unwrap()` on a `None` value"⟩

/-- `Result::unwrap`. As for `expect`, the panic records only the fixed message, without the
": " and the error's debug form that Rust appends to it. -/
def unwrapOk {ε α : Type} (r : Except ε α) : Except Panic α :=
  expect r "called `Result::unwrap()` on an `Err` value"

@[simp] theorem expect_ok {ε α : Type} (a : α) (m : String) :
    expect (.ok a : Except ε α) m = .ok a := rfl

theorem expect_map {ε α β : Type} (f : α → β) (r : Except ε α) (m : String) :
    expect (f <$> r) m = f <$> expect r m := by
  cases r <;> rfl

@[simp] theorem expect_eq_ok {ε α : Type} {r : Except ε α} {m : String} {a : α} :
    expect r m = .ok a ↔ r = .ok a := by
  cases r <;> simp [expect]

/-! ## Descriptor utilities -/

/-- `XKeyUtils::root_fingerprint`: the declared origin's fingerprint, else the key's own. -/
def DescriptorXKey.rootFingerprint (secp : SecpCtx) (x : DescriptorXKey Xpub) : Fingerprint :=
  match x.origin with
  | some (fingerprint, _) => fingerprint
  | none => x.xkey.fingerprint secp

/-- `XKeyUtils::root_fingerprint` for a multipath key. -/
def DescriptorMultiXKey.rootFingerprint (secp : SecpCtx) (x : DescriptorMultiXKey Xpub) :
    Fingerprint :=
  match x.origin with
  | some (fingerprint, _) => fingerprint
  | none => x.xkey.fingerprint secp

variable {P : Type}

/-- `DescriptorMeta::is_witness`. -/
def Descriptor.isWitness (d : Descriptor P) : Bool :=
  match d.descType with
  | .wpkh | .shWpkh | .wsh | .shWsh | .shWshSortedMulti | .wshSortedMulti => true
  | _ => false

/-- `DescriptorMeta::is_taproot`. -/
def Descriptor.isTaproot (d : Descriptor P) : Bool := d.descType == .tr

/-- `DescriptorMeta::get_extended_keys`. -/
def Descriptor.getExtendedKeys (d : ExtendedDescriptor) : List (DescriptorXKey Xpub) :=
  d.keys.filterMap fun
    | .xPub xpub => some xpub
    | _ => none

/-! ## Key origins -/

/-- The map `derive_from_psbt_key_origins` reads: root fingerprint to path and expected
key. -/
abbrev KeyOrigins := BTreeMap Fingerprint (DerivationPath × SinglePubKey)

/-- `HdKeyPaths`. -/
abbrev HdKeyPaths := BTreeMap Secp256k1.PublicKey KeySource

/-- `taproot::TapLeafHash`. -/
structure TapLeafHash where
  hash : Nat
deriving DecidableEq, Repr

/-- `TapKeyOrigins`. -/
abbrev TapKeyOrigins := BTreeMap Secp256k1.XOnlyPublicKey (List TapLeafHash × KeySource)

/-- `psbt::Input`: the fields the matcher reads. -/
structure Input where
  bip32Derivation : HdKeyPaths
  tapKeyOrigins : TapKeyOrigins
  redeemScript : Option ScriptBuf
  witnessScript : Option ScriptBuf

/-- `TxOut`: the field the matcher reads. -/
structure TxOut where
  scriptPubkey : ScriptBuf
deriving DecidableEq, Repr

/-! ## The matcher -/

section Matcher

variable (secp : SecpCtx)

/-- The `match expected` of `verify_key`: `expected` is the point `derived`, as a compressed
key or in x-only form. -/
def SinglePubKey.IsKeyOf (derived : Secp256k1.PublicKey) : SinglePubKey → Prop
  | .fullKey pk => PublicKey.new derived = pk
  | .xOnly pk => secp.xOnly derived = pk

instance (derived : Secp256k1.PublicKey) (expected : SinglePubKey) :
    Decidable (expected.IsKeyOf secp derived) :=
  match expected with
  | .fullKey pk => inferInstanceAs (Decidable (PublicKey.new derived = pk))
  | .xOnly pk => inferInstanceAs (Decidable (secp.xOnly derived = pk))

/-- `verify_key`: deriving `xpub` along `path` yields `expected`. The derivation is
`expect`ed, so a hardened step in `path` panics. -/
def verifyKey (xpub : DescriptorXKey Xpub) (path : DerivationPath) (expected : SinglePubKey) :
    Except Panic Bool := do
  let derived ← expect (xpub.xkey.derivePub secp path)
    "The path should never contain hardened derivation steps"
  pure (decide (expected.IsKeyOf secp derived.publicKey))

/-- `verify_key` answers `true` exactly when the derivation succeeds and gives `expected`. -/
theorem verifyKey_eq_ok_true {xpub : DescriptorXKey Xpub} {path : DerivationPath}
    {expected : SinglePubKey} :
    verifyKey secp xpub path expected = .ok true ↔
      ∃ y, xpub.xkey.derivePub secp path = .ok y ∧ expected.IsKeyOf secp y.publicKey := by
  unfold verifyKey
  cases xpub.xkey.derivePub secp path with
  | error e => exact ⟨nofun, fun ⟨_, h, _⟩ => nomatch h⟩
  | ok y =>
    simp only [expect, bind_pure_comp, Except.map_ok, Except.ok.injEq, decide_eq_true_eq,
      exists_eq_left']

/-- `verify_key` does not panic on a path without hardened step. -/
theorem verifyKey_isOk {xpub : DescriptorXKey Xpub} {path : DerivationPath}
    (hp : ∀ c ∈ path, c.isHardened = false) (expected : SinglePubKey) :
    ∃ b, verifyKey secp xpub path expected = .ok b := by
  obtain ⟨y, hy⟩ := xpub.xkey.derivePub_ok_of_normal secp path hp
  exact ⟨_, by simp only [verifyKey, hy, expect_ok, Except.ok_bind]; rfl⟩

/-- `verify_key` panics only with the message of its `expect`. -/
theorem verifyKey_eq_error {xpub : DescriptorXKey Xpub} {path : DerivationPath}
    {expected : SinglePubKey} {p : Panic} (h : verifyKey secp xpub path expected = .error p) :
    p = ⟨"The path should never contain hardened derivation steps"⟩ := by
  unfold verifyKey at h
  cases hd : xpub.xkey.derivePub secp path <;> rw [hd] at h <;> cases h
  rfl

/-- The `derive_path` of the closure: the entry of `keyOrigins` under the key's root
fingerprint, if `matches` accepts it, stripped of the matched prefix, and kept only if
`verify_key` confirms it. -/
def derivePathOf (keyOrigins : KeyOrigins) (xpub : DescriptorXKey Xpub) :
    Except Panic (Option DerivationPath) :=
  match keyOrigins.getKeyValue (xpub.rootFingerprint secp) with
  | none => pure none
  | some (fingerprint, (path, expected)) =>
    match xpub.matches secp (fingerprint, path) with
    | none => pure none
    | some pre => do
      let derivePath := path.drop pre.length
      if ← verifyKey secp xpub (xpub.derivationPath ++ derivePath) expected then
        pure (some derivePath)
      else pure none

/-- The final `match derive_path` of the closure: the index `path_found` is set to. A
wildcard key takes the one step of `derive_path` if it is normal; a fixed key takes 0. -/
def acceptedIndex (xpub : DescriptorXKey Xpub) : Option DerivationPath → Option Nat
  | some path =>
    if xpub.wildcard ≠ .none ∧ path.length = 1 then
      match path with
      | [.normal index] => some index
      | _ => none
    else if xpub.wildcard = .none ∧ path = [] then some 0
    else none
  | none => none

/-- The closure `derive_from_psbt_key_origins` passes to `for_any_key`: `some index` where
it sets `path_found` and returns `true`. -/
def matchKey (keyOrigins : KeyOrigins) : DescriptorPublicKey → Except Panic (Option Nat)
  | .xPub xpub => acceptedIndex xpub <$> derivePathOf secp keyOrigins xpub
  | _ => pure none

/-- `DescriptorMeta::derive_from_psbt_key_origins`: the first key of the descriptor, in
`for_any_key` order, that the closure accepts fixes the index. -/
def deriveFromPsbtKeyOrigins (d : ExtendedDescriptor) (keyOrigins : KeyOrigins) :
    Except Panic (Option DerivedDescriptor) := do
  match ← d.keys.findSomeM? (matchKey secp keyOrigins) with
  | none => pure none
  | some path => some <$> expect (d.atDerivationIndex path) "We ignore hardened wildcards"

/-- The closure of `derive_from_hd_keypaths` that re-keys an entry by its fingerprint. -/
def hdKeyOrigin : Secp256k1.PublicKey × KeySource → Fingerprint × DerivationPath × SinglePubKey
  | (pk, (fingerprint, path)) => (fingerprint, (path, .fullKey (.new pk)))

/-- The closure of `derive_from_tap_key_origins` that re-keys an entry by its fingerprint. -/
def tapKeyOrigin :
    Secp256k1.XOnlyPublicKey × List TapLeafHash × KeySource →
      Fingerprint × DerivationPath × SinglePubKey
  | (pk, (_, (fingerprint, path))) => (fingerprint, (path, .xOnly pk))

/-- `DescriptorMeta::derive_from_hd_keypaths`. -/
def deriveFromHdKeypaths (d : ExtendedDescriptor) (hdKeypaths : HdKeyPaths) :
    Except Panic (Option DerivedDescriptor) :=
  deriveFromPsbtKeyOrigins secp d <| BTreeMap.collect <| hdKeypaths.entries.map hdKeyOrigin

/-- `DescriptorMeta::derive_from_tap_key_origins`. -/
def deriveFromTapKeyOrigins (d : ExtendedDescriptor) (tapKeyOrigins : TapKeyOrigins) :
    Except Panic (Option DerivedDescriptor) :=
  deriveFromPsbtKeyOrigins secp d <| BTreeMap.collect <| tapKeyOrigins.entries.map tapKeyOrigin

/-- The final `match descriptor.desc_type()` of `derive_from_psbt_input`, on the descriptor
at index 0. A guard that fails falls through to `_ => None`. -/
def fixedIndexMatch (g : Grammar) (descriptor : DerivedDescriptor) (psbtInput : Input)
    (utxo : Option TxOut) : Except Panic (Option DerivedDescriptor) :=
  match descriptor.descType with
  | .pkh | .wpkh | .shWpkh | .tr =>
    if utxo.isSome then do
      let u ← unwrap utxo
      pure (if g.scriptPubkey descriptor = u.scriptPubkey then some descriptor else none)
    else pure none
  | .bare | .sh | .shSortedMulti =>
    if psbtInput.redeemScript.isSome then do
      let script ← unwrapOk (descriptor.explicitScript g)
      let redeemScript ← unwrap psbtInput.redeemScript
      pure (if script = redeemScript then some descriptor else none)
    else pure none
  | .wsh | .shWsh | .shWshSortedMulti | .wshSortedMulti =>
    if psbtInput.witnessScript.isSome then do
      let script ← unwrapOk (descriptor.explicitScript g)
      let witnessScript ← unwrap psbtInput.witnessScript
      pure (if script = witnessScript then some descriptor else none)
    else pure none

/-- `DescriptorMeta::derive_from_psbt_input`: key origins first, then, for a descriptor
without wildcard, the scripts at index 0. -/
def deriveFromPsbtInput (g : Grammar) (d : ExtendedDescriptor) (psbtInput : Input)
    (utxo : Option TxOut) : Except Panic (Option DerivedDescriptor) := do
  match ← deriveFromHdKeypaths secp d psbtInput.bip32Derivation with
  | some derived => pure (some derived)
  | none =>
  match ← deriveFromTapKeyOrigins secp d psbtInput.tapKeyOrigins with
  | some derived => pure (some derived)
  | none =>
  if d.hasWildcard then pure none else do
  let descriptor ← expect (d.atDerivationIndex 0) "0 is not hardened"
  fixedIndexMatch g descriptor psbtInput utxo

end Matcher

end BdkWallet
