import BdkWallet.Bip32

/-!
# Descriptor keys

The key types of `miniscript::descriptor` that the wallet's descriptor code reads: public
and secret descriptor keys, `DescriptorXKey::matches`, derivation at an index, the
conversion of a secret key to its public key, and the maps the code builds over them.

A `BTreeMap` is modelled by the list of its entries in iteration order, with unique keys.
The sort order is not modelled, so every theorem holds for any iteration order; collecting
an iterator keeps the last of the entries with equal keys, as `BTreeMap::from_iter` does.
-/

namespace BdkWallet

/-! ## Maps -/

/-- `BTreeMap<K, V>`: its entries in iteration order, with unique keys. -/
structure BTreeMap (K V : Type) where
  entries : List (K × V)
  nodup : (entries.map Prod.fst).Nodup

namespace BTreeMap

variable {K V : Type} [DecidableEq K]

/-- The entries of `es` that no later entry overrides. -/
def dedupLast : List (K × V) → List (K × V)
  | [] => []
  | e :: es => if es.any (·.1 = e.1) then dedupLast es else e :: dedupLast es

theorem mem_dedupLast {es : List (K × V)} {e : K × V} (h : e ∈ dedupLast es) : e ∈ es := by
  induction es with
  | nil => cases h
  | cons a es ih =>
    simp only [dedupLast] at h
    split at h
    · exact List.mem_cons_of_mem _ (ih h)
    · rcases List.mem_cons.mp h with rfl | h
      · exact List.mem_cons_self _ _
      · exact List.mem_cons_of_mem _ (ih h)

theorem nodup_dedupLast (es : List (K × V)) : ((dedupLast es).map Prod.fst).Nodup := by
  induction es with
  | nil => exact List.nodup_nil
  | cons a es ih =>
    simp only [dedupLast]
    split
    · exact ih
    · rename_i h
      refine List.nodup_cons.mpr ⟨fun hm => h ?_, ih⟩
      obtain ⟨e, he, hk⟩ := List.mem_map.mp hm
      exact List.any_eq_true.mpr ⟨e, mem_dedupLast he, by simp [hk]⟩

/-- `FromIterator for BTreeMap`: a later entry replaces an earlier one with the same key. -/
def collect (es : List (K × V)) : BTreeMap K V := ⟨dedupLast es, nodup_dedupLast es⟩

/-- `BTreeMap::get_key_value`. -/
def getKeyValue (m : BTreeMap K V) (k : K) : Option (K × V) := m.entries.find? (·.1 = k)

/-- A lookup finds an entry of the map under the key looked up. -/
theorem getKeyValue_eq_some {m : BTreeMap K V} {k : K} {e : K × V}
    (h : m.getKeyValue k = some e) : e.1 = k ∧ e ∈ m.entries := by
  unfold getKeyValue at h
  exact ⟨by simpa using List.find?_some h, List.mem_of_find?_eq_some h⟩

/-- A lookup in a collected map finds the last entry with the key. -/
theorem getKeyValue_collect (es : List (K × V)) (k : K) :
    (collect es).getKeyValue k = es.reverse.find? (·.1 = k) := by
  simp only [getKeyValue, collect]
  induction es with
  | nil => rfl
  | cons a es ih =>
    rw [List.reverse_cons, List.find?_append, ← ih]
    by_cases hak : a.1 = k
    · by_cases h : es.any (·.1 = a.1)
      · obtain ⟨e, he, hk⟩ := List.any_eq_true.mp h
        have : ((dedupLast es).find? (·.1 = k)).isSome := by
          rw [ih, List.find?_isSome]
          exact ⟨e, List.mem_reverse.mpr he, by simpa [← hak] using hk⟩
        obtain ⟨x, hx⟩ := Option.isSome_iff_exists.mp this
        simp [dedupLast, h, hx]
      · have : (dedupLast es).find? (·.1 = k) = none := by
          rw [ih, List.find?_eq_none]
          exact fun e he hk =>
            h (List.any_eq_true.mpr ⟨e, List.mem_reverse.mp he, by simpa [hak] using hk⟩)
        rw [dedupLast, if_neg h]
        simp [hak, this]
    · simp only [dedupLast]
      split <;> simp [hak]

/-- A lookup in a collected map finds the only entry with the key. -/
theorem getKeyValue_collect_of_unique {es : List (K × V)} {e : K × V} (he : e ∈ es)
    (hu : ∀ e' ∈ es, e'.1 = e.1 → e' = e) : (collect es).getKeyValue e.1 = some e := by
  rw [getKeyValue_collect]
  cases hf : es.reverse.find? (·.1 = e.1) with
  | none => simpa using List.find?_eq_none.mp hf e (List.mem_reverse.mpr he)
  | some e' =>
    have h1 := List.find?_some hf
    simp only [decide_eq_true_eq] at h1
    rw [hu e' (List.mem_reverse.mp (List.mem_of_find?_eq_some hf)) h1]

/-- A lookup in a collected map finds an entry that no later entry with its key follows. -/
theorem getKeyValue_collect_of_last {pre post : List (K × V)} {e : K × V}
    (h : ∀ e' ∈ post, e'.1 ≠ e.1) : (collect (pre ++ e :: post)).getKeyValue e.1 = some e := by
  rw [getKeyValue_collect, List.reverse_append, List.reverse_cons, List.append_assoc,
    List.find?_append, List.find?_eq_none.mpr fun e' he' => by
      simpa using h e' (List.mem_reverse.mp he')]
  simp

/-- Every key of the collected entries can be looked up. -/
theorem getKeyValue_collect_of_mem {es : List (K × V)} {e : K × V} (he : e ∈ es) :
    ∃ v, (collect es).getKeyValue e.1 = some (e.1, v) := by
  have hs : (es.reverse.find? (·.1 = e.1)).isSome :=
    List.find?_isSome.mpr ⟨e, List.mem_reverse.mpr he, by simp⟩
  obtain ⟨⟨k, v⟩, hf⟩ := Option.isSome_iff_exists.mp hs
  obtain rfl : k = e.1 := by simpa using List.find?_some hf
  exact ⟨v, (getKeyValue_collect es _).trans hf⟩

theorem mem_collect {es : List (K × V)} {e : K × V} (h : e ∈ (collect es).entries) : e ∈ es :=
  mem_dedupLast h

/-- Entries whose keys are already unique are all kept. -/
theorem dedupLast_of_nodup : ∀ {es : List (K × V)}, (es.map Prod.fst).Nodup → dedupLast es = es
  | [], _ => rfl
  | e :: es, h => by
    rw [List.map_cons, List.nodup_cons] at h
    have hn : ¬ es.any (·.1 = e.1) := fun ha =>
      let ⟨x, hx, hxe⟩ := List.any_eq_true.mp ha
      h.1 (List.mem_map.mpr ⟨x, hx, of_decide_eq_true hxe⟩)
    rw [dedupLast, if_neg hn, dedupLast_of_nodup h.2]

/-- Collecting the entries of a map gives the map back. -/
@[simp] theorem collect_entries (m : BTreeMap K V) : collect m.entries = m := by
  obtain ⟨es, h⟩ := m
  simp only [collect, dedupLast_of_nodup h]

end BTreeMap

/-! ## Keys -/

/-- `bip32::KeySource`: the fingerprint of a root key and the path from it. -/
abbrev KeySource := Fingerprint × DerivationPath

/-- `miniscript::descriptor::Wildcard`. -/
inductive Wildcard where
  | none
  | unhardened
  | hardened
deriving DecidableEq, Repr

/-- `DescriptorXKey<K>`: an extended key, its origin, the path to the key it stands for and
the wildcard after that path. -/
structure DescriptorXKey (K : Type) where
  origin : Option KeySource
  xkey : K
  derivationPath : DerivationPath
  wildcard : Wildcard
deriving DecidableEq, Repr

/-- `DescriptorMultiXKey<K>`: an extended key with several alternative paths. -/
structure DescriptorMultiXKey (K : Type) where
  origin : Option KeySource
  xkey : K
  derivationPaths : List DerivationPath
  wildcard : Wildcard
deriving DecidableEq, Repr

/-- `SinglePubKey`. -/
inductive SinglePubKey where
  | fullKey (pk : PublicKey)
  | xOnly (pk : Secp256k1.XOnlyPublicKey)
deriving DecidableEq, Repr

/-- `SinglePub`. -/
structure SinglePub where
  origin : Option KeySource
  key : SinglePubKey
deriving DecidableEq, Repr

/-- `DescriptorPublicKey`. -/
inductive DescriptorPublicKey where
  | single (pk : SinglePub)
  | xPub (xpub : DescriptorXKey Xpub)
  | multiXPub (xpub : DescriptorMultiXKey Xpub)
deriving DecidableEq, Repr

/-- `SinglePriv`. -/
structure SinglePriv where
  origin : Option KeySource
  key : PrivateKey
deriving DecidableEq, Repr

/-- `DescriptorSecretKey`. -/
inductive DescriptorSecretKey where
  | single (sk : SinglePriv)
  | xPrv (xprv : DescriptorXKey Xpriv)
  | multiXPrv (xprv : DescriptorMultiXKey Xpriv)
deriving DecidableEq, Repr

/-- `miniscript::descriptor::KeyMap`. -/
abbrev KeyMap := BTreeMap DescriptorPublicKey DescriptorSecretKey

/-- `KeyMap::default()`. -/
def KeyMap.empty : KeyMap := ⟨[], List.nodup_nil⟩

namespace DescriptorPublicKey

/-- `DescriptorPublicKey::has_wildcard`. -/
def hasWildcard : DescriptorPublicKey → Bool
  | single _ => false
  | xPub x => x.wildcard != .none
  | multiXPub x => x.wildcard != .none

/-- `DescriptorPublicKey::is_multipath`. -/
def isMultipath : DescriptorPublicKey → Bool
  | multiXPub _ => true
  | _ => false

end DescriptorPublicKey

/-- `DescriptorXKey::matches`: whether `keysource` names this key or a child of it at the
wildcard, and if so the key source's path without the wildcard step. -/
def DescriptorXKey.matches (secp : SecpCtx) (x : DescriptorXKey Xpub) (keysource : KeySource) :
    Option DerivationPath :=
  let (compareFingerprint, comparePath) := match x.origin with
    | some (fingerprint, path) => (fingerprint, path ++ x.derivationPath)
    | none => (x.xkey.fingerprint secp, x.derivationPath)
  let pathExcludingWildcard :=
    if x.wildcard ≠ .none ∧ keysource.2 ≠ [] then keysource.2.dropLast else keysource.2
  if compareFingerprint = keysource.1 ∧ comparePath = pathExcludingWildcard then
    some pathExcludingWildcard
  else none

/-! ## Derivation at an index -/

/-- `ConversionError`. -/
inductive ConversionError where
  | hardenedChild
  | multiKey
deriving DecidableEq, Repr

/-- `DefiniteDescriptorKey`: a descriptor key without wildcard. Derivation at an index, its
only producer here, never yields a multipath key either. -/
structure DefiniteDescriptorKey where
  key : DescriptorPublicKey
  definite : key.hasWildcard = false ∧ key.isMultipath = false
deriving DecidableEq

/-- The path of an extended key once its wildcard is replaced by `index`
(the body of `DescriptorPublicKey::at_derivation_index` for `XPub`). -/
def DescriptorXKey.pathAt (x : DescriptorXKey Xpub) (index : Nat) :
    Except ConversionError DerivationPath :=
  match x.wildcard with
  | .none => .ok x.derivationPath
  | .unhardened =>
    ((ChildNumber.fromNormalIdx index).mapError fun _ => .hardenedChild).map
      (x.derivationPath ++ [·])
  | .hardened =>
    ((ChildNumber.fromHardenedIdx index).mapError fun _ => .hardenedChild).map
      (x.derivationPath ++ [·])

/-- `DescriptorPublicKey::at_derivation_index`. -/
def DescriptorPublicKey.atDerivationIndex (index : Nat) :
    DescriptorPublicKey → Except ConversionError DefiniteDescriptorKey
  | .single pk => .ok ⟨.single pk, rfl, rfl⟩
  | .xPub x =>
    (x.pathAt index).map fun p =>
      ⟨.xPub { x with derivationPath := p, wildcard := .none }, rfl, rfl⟩
  | .multiXPub _ => .error .multiKey

/-- `DefiniteDescriptorKey::derive_public_key`: a derivation error can only be a hardened
step. -/
def DefiniteDescriptorKey.derivePublicKey (secp : SecpCtx) :
    DefiniteDescriptorKey → Except ConversionError PublicKey
  | ⟨.single ⟨_, .fullKey pk⟩, _⟩ => .ok pk
  | ⟨.single ⟨_, .xOnly pk⟩, _⟩ => .ok (.new (secp.evenKey pk))
  | ⟨.xPub x, _⟩ =>
    match x.xkey.derivePub secp x.derivationPath with
    | .ok y => .ok (.new y.publicKey)
    | .error _ => .error .hardenedChild
  | ⟨.multiXPub _, h⟩ => nomatch h.2

/-! ## Secret keys to public keys -/

/-- `DescriptorKeyParseError`. -/
structure DescriptorKeyParseError where
  message : String
deriving DecidableEq, Repr

/-- `SinglePriv::to_public`. -/
def SinglePriv.toPublic (secp : SecpCtx) (sk : SinglePriv) : SinglePub :=
  ⟨sk.origin, .fullKey (sk.key.publicKey secp)⟩

/-- `DescriptorXKey<Xpriv>::to_public`: the hardened prefix of the path is derived
privately and moved into the origin; the normal suffix stays. -/
def DescriptorXKey.toPublic (secp : SecpCtx) (x : DescriptorXKey Xpriv) : DescriptorXKey Xpub :=
  let unhardened := (x.derivationPath.reverse.takeWhile ChildNumber.isNormal).length
  let lastHardenedIdx := x.derivationPath.length - unhardened
  let hardenedPath := x.derivationPath.take lastHardenedIdx
  let unhardenedPath := x.derivationPath.drop lastHardenedIdx
  let xprv := x.xkey.derivePriv secp hardenedPath
  let origin := match x.origin with
    | some (fingerprint, path) => some (fingerprint, path ++ hardenedPath)
    | none => if hardenedPath = [] then none else some (x.xkey.fingerprint secp, hardenedPath)
  ⟨origin, Xpub.fromPriv secp xprv, unhardenedPath, x.wildcard⟩

/-- `DescriptorSecretKey::to_public`: a multipath secret key has no single public key. -/
def DescriptorSecretKey.toPublic (secp : SecpCtx) :
    DescriptorSecretKey → Except DescriptorKeyParseError DescriptorPublicKey
  | .single sk => .ok (.single (sk.toPublic secp))
  | .xPrv x => .ok (.xPub (x.toPublic secp))
  | .multiXPrv _ =>
    .error ⟨"Can't make an extended private key with multiple paths into a public key."⟩

end BdkWallet
