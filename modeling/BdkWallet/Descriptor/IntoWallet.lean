import BdkWallet.Descriptor.Meta

/-!
# Canonical wallet descriptors

`IntoWalletDescriptor` turns each kind of source into the pair of a public descriptor and
its key map, for one network. Text is checked against its checksum and parsed; a pair is
checked key by key against the network and returned unchanged; a template's extended
public keys, and the matching secret keys of its key map, are retagged to the network.

The checksum (`calc_checksum`) and the parser are not in the modelled sources and are
parameters. The valid networks of a public key come from the wallet's `keys` module, which
is not in the modelled sources either; they are modelled from the spec.

## Main definitions

* `DescriptorError`, `DescriptorPublicKey.validNetworks`.
* `intoWalletDescriptorStr`, `intoWalletDescriptorWithKeyMap`,
  `intoWalletDescriptorTemplate` and the dispatch `intoWalletDescriptor`.

## Main results

* `intoWalletDescriptor_validFor`: every key of the result is on the network, multipath keys
  of a template apart.
* `intoWalletDescriptorTemplate_idempotent`: a template's result, fed back as a template, is
  returned unchanged.
* `intoWalletDescriptor_network_kind`: only the kind of the network matters, and a template's
  list of networks.
-/

namespace BdkWallet

/-! ## Errors -/

/-- `keys::KeyError`: the variant this module produces, and the message of any other. -/
inductive KeyError where
  | invalidNetwork
  | message (message : String)
deriving DecidableEq, Repr

/-- `descriptor::error::Error`: the variants this module produces or wraps, and those a
checksum computation returns. -/
inductive DescriptorError where
  | invalidDescriptorChecksum
  | invalidDescriptorCharacter (c : UInt8)
  | hardenedDerivationXpub
  | key (e : KeyError)
  | miniscript (e : MiniscriptError)
deriving DecidableEq, Repr

/-! ## Valid networks -/

/-- `ValidNetworks`: a set of networks, as a list. -/
abbrev ValidNetworks := List Network

/-- `keys::any_network`. -/
def anyNetwork : ValidNetworks := [.bitcoin, .testnet, .testnet4, .regtest, .signet]

/-- `keys::mainnet_network`. -/
def mainnetNetwork : ValidNetworks := [.bitcoin]

/-- `keys::test_networks`. -/
def testNetworks : ValidNetworks := [.testnet, .testnet4, .regtest, .signet]

/-- The networks of one network kind. -/
def NetworkKind.networks : NetworkKind → ValidNetworks
  | .main => mainnetNetwork
  | .test => testNetworks

/-- The script context a `DescriptorKey<Ctx>` is built for. -/
inductive ScriptContext where
  | legacy
  | segwitv0
  | tap
deriving DecidableEq, Repr

/-- Modelled from the spec: `IntoDescriptorKey<Ctx> for DescriptorPublicKey` followed by
`DescriptorKey::extract` (the wallet's `keys` module), which give a public key its valid
networks. A single key records no network and is valid on any network; an extended key is
valid on the networks of its kind. The script context is not read. -/
def DescriptorPublicKey.intoDescriptorKeyNetworks (_ : ScriptContext) :
    DescriptorPublicKey → ValidNetworks
  | .single _ => anyNetwork
  | .xPub xpub => xpub.xkey.network.networks
  | .multiXPub xpub => xpub.xkey.network.networks

/-- The valid networks of a public key, in any script context. -/
def DescriptorPublicKey.validNetworks (pk : DescriptorPublicKey) : ValidNetworks :=
  pk.intoDescriptorKeyNetworks .legacy

@[simp] theorem DescriptorPublicKey.intoDescriptorKeyNetworks_eq (ctx : ScriptContext)
    (pk : DescriptorPublicKey) : pk.intoDescriptorKeyNetworks ctx = pk.validNetworks := by
  cases pk <;> rfl

theorem NetworkKind.mem_networks (n : Network) : n ∈ n.kind.networks := by
  cases n <;> decide

theorem NetworkKind.mem_networks_iff (k : NetworkKind) (n : Network) :
    n ∈ k.networks ↔ n.kind = k := by
  cases k <;> cases n <;> decide

/-! ## Descriptor with key map -/

/-- The `Translator` of `IntoWalletDescriptor for (ExtendedDescriptor, KeyMap)`: a key
passes when the network is among its valid networks. The translated descriptor is
discarded. -/
def networkCheck (descriptor : ExtendedDescriptor) (network : Network)
    (pk : DescriptorPublicKey) : Except DescriptorError String :=
  let networks :=
    if descriptor.isTaproot then pk.intoDescriptorKeyNetworks .tap
    else if descriptor.isWitness then pk.intoDescriptorKeyNetworks .segwitv0
    else pk.intoDescriptorKeyNetworks .legacy
  if network ∈ networks then .ok "" else .error (.key .invalidNetwork)

/-- `IntoWalletDescriptor for (ExtendedDescriptor, KeyMap)`: check the network of every
key; return the pair unchanged. -/
def intoWalletDescriptorWithKeyMap (descriptor : ExtendedDescriptor) (keyMap : KeyMap)
    (network : Network) : Except DescriptorError (ExtendedDescriptor × KeyMap) :=
  match descriptor.translatePk (networkCheck descriptor network) with
  | .ok _ => .ok (descriptor, keyMap)
  | .error e => .error e

/-! ## Text -/

/-- `str::split_once`: the text before and after the first occurrence of `c`. -/
def splitOnce (c : Char) : List Char → Option (List Char × List Char)
  | [] => none
  | x :: xs => if x = c then some ([], xs) else (splitOnce c xs).map fun p => (x :: p.1, p.2)

/-- The `match self.split_once('#')` of `IntoWalletDescriptor for &str`: the text before a
`#`, which must have the checksum that follows it, or the whole text. -/
def checkedDescriptorText (calcChecksum : String → Except DescriptorError String) (s : String) :
    Except DescriptorError String :=
  match splitOnce '#' s.toList with
  | some (desc, originalChecksum) => do
    let checksum ← calcChecksum (String.mk desc)
    if String.mk originalChecksum ≠ checksum then throw .invalidDescriptorChecksum
    pure (String.mk desc)
  | none => pure s

/-- `IntoWalletDescriptor for &str` (and `String`, `&String`): the checked text is parsed
and checked as a pair. -/
def intoWalletDescriptorStr (g : Grammar) (calcChecksum : String → Except DescriptorError String)
    (s : String) (network : Network) : Except DescriptorError (ExtendedDescriptor × KeyMap) := do
  let descriptor ← checkedDescriptorText calcChecksum s
  let parsed ← (g.parseDescriptor descriptor).mapError .miniscript
  intoWalletDescriptorWithKeyMap parsed.1 parsed.2 network

/-! ## Templates -/

/-- `DescriptorTemplateOut`: a descriptor, its key map and the networks it is valid on. -/
abbrev DescriptorTemplateOut := ExtendedDescriptor × KeyMap × ValidNetworks

/-- The `Translator` of `IntoWalletDescriptor for DescriptorTemplateOut`: an `XPub` is
retagged to the network; every other key is cloned. -/
def fixNetwork (network : Network) : DescriptorPublicKey → DescriptorPublicKey
  | .xPub xpub => .xPub { xpub with xkey := { xpub.xkey with network := network.kind } }
  | other => other

/-- The fix-up of one key map entry: both keys of an `XPub`/`XPrv` pair are retagged, a
single secret key is retagged, and any other entry is kept. -/
def fixKeyMapEntry (network : Network) :
    DescriptorPublicKey × DescriptorSecretKey → DescriptorPublicKey × DescriptorSecretKey
  | (.xPub xpub, .xPrv xprv) =>
    (.xPub { xpub with xkey := { xpub.xkey with network := network.kind } },
      .xPrv { xprv with xkey := { xprv.xkey with network := network.kind } })
  | (k, .single key) => (k, .single { key with key := { key.key with network := network.kind } })
  | entry => entry

/-- `IntoWalletDescriptor for DescriptorTemplateOut`. -/
def intoWalletDescriptorTemplate (template : DescriptorTemplateOut) (network : Network) :
    Except DescriptorError (ExtendedDescriptor × KeyMap) :=
  let (desc, keymap, networks) := template
  if network ∉ networks then .error (.key .invalidNetwork) else
  match desc.translatePk (fun pk => (.ok (fixNetwork network pk) : Except DescriptorError _)) with
  | .error e => .error e
  | .ok translated =>
    .ok (translated, BTreeMap.collect (keymap.entries.map (fixKeyMapEntry network)))

/-! ## All sources -/

/-- The sources `IntoWalletDescriptor` is implemented for. -/
inductive WalletDescriptorSource where
  | str (s : String)
  | descriptor (d : ExtendedDescriptor)
  | withKeyMap (d : ExtendedDescriptor) (keyMap : KeyMap)
  | template (t : DescriptorTemplateOut)

/-- `IntoWalletDescriptor::into_wallet_descriptor`, dispatched on the source. A bare
descriptor comes with the empty key map. -/
def intoWalletDescriptor (g : Grammar) (calcChecksum : String → Except DescriptorError String) :
    WalletDescriptorSource → Network → Except DescriptorError (ExtendedDescriptor × KeyMap)
  | .str s => intoWalletDescriptorStr g calcChecksum s
  | .descriptor d => intoWalletDescriptorWithKeyMap d .empty
  | .withKeyMap d keyMap => intoWalletDescriptorWithKeyMap d keyMap
  | .template t => intoWalletDescriptorTemplate t

/-! ## The network check -/

/-- A key can be used on a network: a single key on any, an extended key on the networks of
its kind. -/
def DescriptorPublicKey.ValidFor (n : Network) : DescriptorPublicKey → Prop
  | .single _ => True
  | .xPub xpub => xpub.xkey.network = n.kind
  | .multiXPub xpub => xpub.xkey.network = n.kind

instance (n : Network) (pk : DescriptorPublicKey) : Decidable (pk.ValidFor n) := by
  cases pk <;> unfold DescriptorPublicKey.ValidFor <;> infer_instance

/-- A network is among a key's valid networks exactly when the key can be used on it. -/
@[simp] theorem DescriptorPublicKey.mem_validNetworks (n : Network) (pk : DescriptorPublicKey) :
    n ∈ pk.validNetworks ↔ pk.ValidFor n := by
  cases pk with
  | single => cases n <;> simp [validNetworks, intoDescriptorKeyNetworks, anyNetwork, ValidFor]
  | xPub xpub => exact (NetworkKind.mem_networks_iff _ n).trans eq_comm
  | multiXPub xpub => exact (NetworkKind.mem_networks_iff _ n).trans eq_comm

theorem networkCheck_eq (d : ExtendedDescriptor) (n : Network) (pk : DescriptorPublicKey) :
    networkCheck d n pk = if pk.ValidFor n then .ok "" else .error (.key .invalidNetwork) := by
  simp [networkCheck]

/-- A pair whose keys can all be used on the network is returned unchanged. -/
theorem intoWalletDescriptorWithKeyMap_of_validFor {d : ExtendedDescriptor} {n : Network}
    (km : KeyMap) (h : ∀ k ∈ d.keys, k.ValidFor n) :
    intoWalletDescriptorWithKeyMap d km n = .ok (d, km) := by
  rw [intoWalletDescriptorWithKeyMap,
    d.translatePk_of_forall (g := fun _ => "") fun k hk => by simp [networkCheck_eq, h k hk]]

/-- **A pair is returned unchanged exactly when every key of the descriptor can be used on the
network**, and is refused with `InvalidNetwork` otherwise. Whatever else the descriptor and
the key map hold does not matter. -/
theorem intoWalletDescriptorWithKeyMap_eq (d : ExtendedDescriptor) (km : KeyMap) (n : Network) :
    intoWalletDescriptorWithKeyMap d km n =
      if ∀ k ∈ d.keys, n ∈ k.validNetworks then .ok (d, km) else .error (.key .invalidNetwork) := by
  simp only [DescriptorPublicKey.mem_validNetworks]
  split
  · exact intoWalletDescriptorWithKeyMap_of_validFor km ‹_›
  · rename_i h
    obtain ⟨k, hk, hn⟩ := not_forall₂.mp h
    cases ht : d.translatePk (networkCheck d n) with
    | ok d' =>
      obtain ⟨q, -, hq⟩ := List.Forall₂.exists_left (Descriptor.translatePk_ok ht) k hk
      simp [networkCheck_eq, hn] at hq
    | error e =>
      obtain ⟨k', -, he⟩ := Descriptor.translatePk_error ht
      rw [intoWalletDescriptorWithKeyMap, ht]
      rw [networkCheck_eq] at he
      split at he <;> cases he
      rfl

/-- The pairs `intoWalletDescriptorWithKeyMap` accepts are exactly the ones it returns. -/
theorem intoWalletDescriptorWithKeyMap_ok {d d' : ExtendedDescriptor} {km km' : KeyMap}
    {n : Network} (h : intoWalletDescriptorWithKeyMap d km n = .ok (d', km')) :
    d' = d ∧ km' = km ∧ ∀ k ∈ d.keys, k.ValidFor n := by
  unfold intoWalletDescriptorWithKeyMap at h
  split at h
  · rename_i ht
    cases h
    refine ⟨rfl, rfl, fun k hk => ?_⟩
    obtain ⟨q, -, hq⟩ := List.Forall₂.exists_left (Descriptor.translatePk_ok ht) k hk
    rw [networkCheck_eq] at hq
    split at hq
    · assumption
    · cases hq
  · cases h

/-! ## Checksums -/

theorem splitOnce_append (e c : List Char) (he : '#' ∉ e) :
    splitOnce '#' (e ++ '#' :: c) = some (e, c) := by
  induction e with
  | nil => simp [splitOnce]
  | cons x xs ih =>
    have hx : x ≠ '#' := fun h => he (h ▸ List.mem_cons_self _ _)
    simp [splitOnce, hx, ih fun h => he (List.mem_cons_of_mem _ h)]

theorem splitOnce_eq_none (s : List Char) (hs : '#' ∉ s) : splitOnce '#' s = none := by
  induction s with
  | nil => rfl
  | cons x xs ih =>
    have hx : x ≠ '#' := fun h => hs (h ▸ List.mem_cons_self _ _)
    simp [splitOnce, hx, ih fun h => hs (List.mem_cons_of_mem _ h)]

/-- **The checksum law of text sources.** For text `e` before its first `#` and the rest `c`:
a checksum error is returned as it is, a checksum that differs from `c` gives
`InvalidDescriptorChecksum` before any parsing or network check, and an equal one gives the
outcome for `e` alone. -/
theorem intoWalletDescriptorStr_checksum (g : Grammar)
    (calcChecksum : String → Except DescriptorError String) (e c : List Char) (he : '#' ∉ e)
    (n : Network) :
    intoWalletDescriptorStr g calcChecksum ⟨e ++ '#' :: c⟩ n =
      match calcChecksum ⟨e⟩ with
      | .error err => .error err
      | .ok checksum =>
        if (⟨c⟩ : String) = checksum then intoWalletDescriptorStr g calcChecksum ⟨e⟩ n
        else .error .invalidDescriptorChecksum := by
  have hnone : splitOnce '#' e = none := splitOnce_eq_none e he
  simp only [intoWalletDescriptorStr, checkedDescriptorText, String.toList,
    splitOnce_append e c he, hnone]
  cases calcChecksum ⟨e⟩ with
  | error err => rfl
  | ok checksum =>
    by_cases hc : (⟨c⟩ : String) = checksum
    · simp [hc]
    · simp [hc]; rfl

/-- The law at `wpkh(K)#12345678` with a checksum computation that gives `qwertyui`. -/
theorem intoWalletDescriptorStr_checksum_mismatch :
    '#' ∉ "wpkh(K)".toList ∧
      intoWalletDescriptorStr ⟨fun _ => .error (.other "unparsable"), fun _ => .ok (),
        fun _ => ⟨[]⟩, fun _ => ⟨[]⟩⟩ (fun _ => .ok "qwertyui") "wpkh(K)#12345678" .bitcoin =
        .error .invalidDescriptorChecksum :=
  ⟨by decide, (intoWalletDescriptorStr_checksum _ _ "wpkh(K)".toList "12345678".toList
    (by decide) .bitcoin).trans rfl⟩

/-! ## Templates: the equation of the path -/

/-- The result of a template: refused off its networks, otherwise its descriptor with every
`XPub` retagged and its key map fixed up entry by entry. The translation never fails. -/
theorem intoWalletDescriptorTemplate_eq (d : ExtendedDescriptor) (km : KeyMap)
    (nets : ValidNetworks) (n : Network) :
    intoWalletDescriptorTemplate (d, km, nets) n =
      if n ∈ nets then
        .ok (d.map (fixNetwork n), BTreeMap.collect (km.entries.map (fixKeyMapEntry n)))
      else .error (.key .invalidNetwork) := by
  by_cases hn : n ∈ nets
  · simp only [intoWalletDescriptorTemplate, hn, not_true_eq_false, if_false, if_true,
      d.translatePk_of_forall (g := fixNetwork n) fun _ _ => rfl]
  · simp [intoWalletDescriptorTemplate, hn]

/-- A retagged key can be used on the network unless it is a multipath key, which the
template's translator leaves as it is. -/
theorem fixNetwork_validFor (n : Network) (k : DescriptorPublicKey) (hk : k.isMultipath = false) :
    (fixNetwork n k).ValidFor n := by
  cases k with
  | single => trivial
  | xPub => rfl
  | multiXPub => cases hk

theorem intoWalletDescriptorWithKeyMap_validFor {d₀ d : ExtendedDescriptor} {km₀ km : KeyMap}
    {n : Network} (h : intoWalletDescriptorWithKeyMap d₀ km₀ n = .ok (d, km)) :
    ∀ k ∈ d.keys, k.ValidFor n := by
  obtain ⟨rfl, -, hv⟩ := intoWalletDescriptorWithKeyMap_ok h
  exact hv

/-- Text is accepted only through the check of a parsed pair. -/
theorem intoWalletDescriptorStr_ok {g : Grammar}
    {calcChecksum : String → Except DescriptorError String} {s : String} {n : Network}
    {r : ExtendedDescriptor × KeyMap} (h : intoWalletDescriptorStr g calcChecksum s n = .ok r) :
    ∃ d₀ km₀, intoWalletDescriptorWithKeyMap d₀ km₀ n = .ok r := by
  obtain ⟨_, -, h⟩ := Except.bind_eq_ok.mp h
  obtain ⟨_, -, h⟩ := Except.bind_eq_ok.mp h
  exact ⟨_, _, h⟩

/-- **Every source yields keys that can be used on the network, multipath keys of a template
apart.** Only `XPub` keys of a template are retagged; all other keys were checked. -/
theorem intoWalletDescriptor_validFor (g : Grammar)
    (calcChecksum : String → Except DescriptorError String) (src : WalletDescriptorSource)
    (n : Network) {d : ExtendedDescriptor} {km : KeyMap}
    (h : intoWalletDescriptor g calcChecksum src n = .ok (d, km)) :
    ∀ k ∈ d.keys, k.isMultipath = false → k.ValidFor n := by
  cases src with
  | str s =>
    obtain ⟨d₀, km₀, h⟩ := intoWalletDescriptorStr_ok h
    exact fun k hk _ => intoWalletDescriptorWithKeyMap_validFor h k hk
  | descriptor => exact fun k hk _ => intoWalletDescriptorWithKeyMap_validFor h k hk
  | withKeyMap => exact fun k hk _ => intoWalletDescriptorWithKeyMap_validFor h k hk
  | template t =>
    obtain ⟨d₀, km₀, nets⟩ := t
    rw [intoWalletDescriptor, intoWalletDescriptorTemplate_eq] at h
    split at h
    · cases h
      intro k hk hm
      rw [Descriptor.keys_map] at hk
      obtain ⟨k₀, -, rfl⟩ := List.mem_map.mp hk
      exact fixNetwork_validFor n k₀ (by cases k₀ <;> first | rfl | exact hm)
    · cases h

/-- A template with a multipath mainnet key and every network valid is accepted on testnet
with the key unchanged, and the result is then refused as a pair on that network. -/
theorem intoWalletDescriptorTemplate_multipath_mainnet :
    intoWalletDescriptorTemplate
        (.wpkh (.multiXPub ⟨none, ⟨.main, ⟨2⟩, ⟨3⟩⟩, [[.normal 0], [.normal 1]], .unhardened⟩),
          .empty, anyNetwork) .testnet =
      .ok (.wpkh (.multiXPub ⟨none, ⟨.main, ⟨2⟩, ⟨3⟩⟩, [[.normal 0], [.normal 1]], .unhardened⟩),
          .empty) ∧
    intoWalletDescriptorWithKeyMap
        (.wpkh (.multiXPub ⟨none, ⟨.main, ⟨2⟩, ⟨3⟩⟩, [[.normal 0], [.normal 1]], .unhardened⟩))
        .empty .testnet = .error (.key .invalidNetwork) :=
  ⟨rfl, rfl⟩

/-! ## Key maps of templates -/

/-- A key with the network tag of its extended key erased. -/
def DescriptorPublicKey.eraseNetwork : DescriptorPublicKey → DescriptorPublicKey
  | .xPub xpub => .xPub { xpub with xkey := { xpub.xkey with network := .main } }
  | .multiXPub xpub => .multiXPub { xpub with xkey := { xpub.xkey with network := .main } }
  | k => k

@[simp] theorem eraseNetwork_fixNetwork (n : Network) (k : DescriptorPublicKey) :
    (fixNetwork n k).eraseNetwork = k.eraseNetwork := by
  cases k <;> rfl

/-- A secret key retagged to the network as the key map fix-up retags it: `XPrv` and single
keys. -/
def fixSecretKey (network : Network) : DescriptorSecretKey → DescriptorSecretKey
  | .xPrv xprv => .xPrv { xprv with xkey := { xprv.xkey with network := network.kind } }
  | .single key => .single { key with key := { key.key with network := network.kind } }
  | other => other

/-- A secret key is of the same kind as a public key. -/
def DescriptorSecretKey.SameKind : DescriptorSecretKey → DescriptorPublicKey → Prop
  | .single _, .single _ => True
  | .xPrv _, .xPub _ => True
  | .multiXPrv _, .multiXPub _ => True
  | _, _ => False

/-- On an entry pairing keys of one kind, the fix-up retags the public key as the
descriptor's translator does. -/
theorem fixKeyMapEntry_of_sameKind (n : Network) {e : DescriptorPublicKey × DescriptorSecretKey}
    (h : e.2.SameKind e.1) : fixKeyMapEntry n e = (fixNetwork n e.1, fixSecretKey n e.2) := by
  obtain ⟨k, v⟩ := e
  cases k <;> cases v <;> first | rfl | cases h

/-- **The template path only retags.** It fails exactly off the template's networks; otherwise
the translation succeeds, the descriptor is the template's up to the network tags of its
extended keys, and the key map is the template's with each entry fixed up on its own, which
on entries pairing keys of one kind is the descriptor's retagging. -/
theorem intoWalletDescriptorTemplate_frame (d : ExtendedDescriptor) (km : KeyMap)
    (nets : ValidNetworks) (n : Network) :
    (intoWalletDescriptorTemplate (d, km, nets) n = .error (.key .invalidNetwork) ↔ n ∉ nets) ∧
    (n ∈ nets → ∃ d' km', intoWalletDescriptorTemplate (d, km, nets) n = .ok (d', km') ∧
      d'.map DescriptorPublicKey.eraseNetwork = d.map DescriptorPublicKey.eraseNetwork ∧
      km' = BTreeMap.collect (km.entries.map (fixKeyMapEntry n)) ∧
      ∀ e ∈ km.entries, e.2.SameKind e.1 →
        fixKeyMapEntry n e = (fixNetwork n e.1, fixSecretKey n e.2)) := by
  rw [intoWalletDescriptorTemplate_eq]
  refine ⟨?_, fun hn => ⟨_, _, if_pos hn, ?_, rfl, fun e _ h => fixKeyMapEntry_of_sameKind n h⟩⟩
  · by_cases hn : n ∈ nets <;> simp [hn]
  · rw [Descriptor.map_map]
    exact Descriptor.map_congr d fun k _ => eraseNetwork_fixNetwork n k

/-- An `XPub` paired with a single secret key keeps its network in the key map, while the
descriptor's copy of it is retagged. -/
theorem intoWalletDescriptorTemplate_mixed_entry :
    ∃ d' km', intoWalletDescriptorTemplate
        (.wpkh (.xPub ⟨none, ⟨.main, ⟨2⟩, ⟨3⟩⟩, [], .unhardened⟩),
          ⟨[(.xPub ⟨none, ⟨.main, ⟨2⟩, ⟨3⟩⟩, [], .unhardened⟩, .single ⟨none, ⟨true, .main, ⟨5⟩⟩⟩)],
            List.nodup_singleton _⟩, anyNetwork) .testnet = .ok (d', km') ∧
      (fixNetwork .testnet (.xPub ⟨none, ⟨.main, ⟨2⟩, ⟨3⟩⟩, [], .unhardened⟩),
        fixSecretKey .testnet (.single ⟨none, ⟨true, .main, ⟨5⟩⟩⟩)) ∉ km'.entries :=
  ⟨_, _, rfl, by decide⟩

/-- A key map is consistent with a descriptor: the public key of every secret key is its
entry's key, and that key occurs in the descriptor. -/
def KeyMap.ConsistentWith (secp : SecpCtx) (km : KeyMap) (d : ExtendedDescriptor) : Prop :=
  ∀ e ∈ km.entries, e.2.toPublic secp = .ok e.1 ∧ e.1 ∈ d.keys

/-- The public key of a retagged extended secret key is the retagged public key. -/
theorem DescriptorXKey.toPublic_network (secp : SecpCtx) (x : DescriptorXKey Xpriv)
    (nk : NetworkKind) :
    DescriptorXKey.toPublic secp { x with xkey := { x.xkey with network := nk } } =
      { x.toPublic secp with xkey := { (x.toPublic secp).xkey with network := nk } } := by
  simp [DescriptorXKey.toPublic, Xpriv.derivePriv_network, Xpub.fromPriv, Xpriv.fingerprint,
    Xpub.fingerprint]

/-- The fix-up keeps an entry consistent, and retags its key as the descriptor's
translator does. -/
theorem toPublic_fixKeyMapEntry (secp : SecpCtx) (n : Network)
    {e : DescriptorPublicKey × DescriptorSecretKey} (h : e.2.toPublic secp = .ok e.1) :
    (fixKeyMapEntry n e).2.toPublic secp = .ok (fixKeyMapEntry n e).1 ∧
      (fixKeyMapEntry n e).1 = fixNetwork n e.1 := by
  obtain ⟨k, v⟩ := e
  cases v with
  | single sk =>
    cases h
    exact ⟨rfl, rfl⟩
  | xPrv x =>
    cases h
    simp [fixKeyMapEntry, DescriptorSecretKey.toPublic, DescriptorXKey.toPublic_network,
      fixNetwork]
  | multiXPrv x => cases h

/-- **A template's consistent key map stays consistent with its descriptor, and every key it
held a secret key for still finds one, retagged with it,** on every network of the template. -/
theorem intoWalletDescriptorTemplate_consistent (secp : SecpCtx) (d : ExtendedDescriptor)
    (km : KeyMap) (nets : ValidNetworks) (n : Network) (hkm : km.ConsistentWith secp d)
    (hn : n ∈ nets) :
    ∃ d' km', intoWalletDescriptorTemplate (d, km, nets) n = .ok (d', km') ∧
      km'.ConsistentWith secp d' ∧
      ∀ e ∈ km.entries, ∃ v, km'.getKeyValue (fixNetwork n e.1) = some (fixNetwork n e.1, v) ∧
        v.toPublic secp = .ok (fixNetwork n e.1) := by
  have hcons : KeyMap.ConsistentWith secp (BTreeMap.collect (km.entries.map (fixKeyMapEntry n)))
      (d.map (fixNetwork n)) := by
    intro e' he'
    obtain ⟨e, he, rfl⟩ := List.mem_map.mp (BTreeMap.mem_collect he')
    obtain ⟨hpub, hkey⟩ := toPublic_fixKeyMapEntry secp n (hkm e he).1
    refine ⟨hpub, ?_⟩
    rw [hkey, Descriptor.keys_map]
    exact List.mem_map_of_mem _ (hkm e he).2
  refine ⟨_, _, (intoWalletDescriptorTemplate_eq d km nets n).trans (if_pos hn), hcons,
    fun e he => ?_⟩
  obtain ⟨v, hv⟩ :=
    BTreeMap.getKeyValue_collect_of_mem (List.mem_map_of_mem (fixKeyMapEntry n) he)
  rw [(toPublic_fixKeyMapEntry secp n (hkm e he).1).2] at hv
  exact ⟨v, hv, (hcons _ (BTreeMap.getKeyValue_eq_some hv).2).1⟩

theorem intoWalletDescriptorTemplate_consistent_xprv :
    KeyMap.ConsistentWith SecpCtx.sample
        ⟨[(.xPub (DescriptorXKey.toPublic SecpCtx.sample
            ⟨none, ⟨.main, ⟨7⟩, ⟨1⟩⟩, [.normal 0], .unhardened⟩),
          .xPrv ⟨none, ⟨.main, ⟨7⟩, ⟨1⟩⟩, [.normal 0], .unhardened⟩)], List.nodup_singleton _⟩
        (.wpkh (.xPub (DescriptorXKey.toPublic SecpCtx.sample
          ⟨none, ⟨.main, ⟨7⟩, ⟨1⟩⟩, [.normal 0], .unhardened⟩))) ∧
      Network.testnet ∈ anyNetwork ∧
      ∃ d' km', intoWalletDescriptorTemplate
        (.wpkh (.xPub (DescriptorXKey.toPublic SecpCtx.sample
          ⟨none, ⟨.main, ⟨7⟩, ⟨1⟩⟩, [.normal 0], .unhardened⟩)),
        ⟨[(.xPub (DescriptorXKey.toPublic SecpCtx.sample
            ⟨none, ⟨.main, ⟨7⟩, ⟨1⟩⟩, [.normal 0], .unhardened⟩),
          .xPrv ⟨none, ⟨.main, ⟨7⟩, ⟨1⟩⟩, [.normal 0], .unhardened⟩)], List.nodup_singleton _⟩,
        anyNetwork) .testnet = .ok (d', km') ∧ km'.ConsistentWith SecpCtx.sample d' ∧
      ∀ e ∈ (⟨[(.xPub (DescriptorXKey.toPublic SecpCtx.sample
            ⟨none, ⟨.main, ⟨7⟩, ⟨1⟩⟩, [.normal 0], .unhardened⟩),
          .xPrv ⟨none, ⟨.main, ⟨7⟩, ⟨1⟩⟩, [.normal 0], .unhardened⟩)], List.nodup_singleton _⟩ :
          KeyMap).entries,
        ∃ v, km'.getKeyValue (fixNetwork .testnet e.1) = some (fixNetwork .testnet e.1, v) ∧
          v.toPublic SecpCtx.sample = .ok (fixNetwork .testnet e.1) := by
  have hkm : KeyMap.ConsistentWith SecpCtx.sample
      ⟨[(.xPub (DescriptorXKey.toPublic SecpCtx.sample
          ⟨none, ⟨.main, ⟨7⟩, ⟨1⟩⟩, [.normal 0], .unhardened⟩),
        .xPrv ⟨none, ⟨.main, ⟨7⟩, ⟨1⟩⟩, [.normal 0], .unhardened⟩)], List.nodup_singleton _⟩
      (.wpkh (.xPub (DescriptorXKey.toPublic SecpCtx.sample
        ⟨none, ⟨.main, ⟨7⟩, ⟨1⟩⟩, [.normal 0], .unhardened⟩))) := by
    rintro e (_ | ⟨_, ⟨⟩⟩)
    exact ⟨rfl, List.mem_singleton_self _⟩
  exact ⟨hkm, by decide, intoWalletDescriptorTemplate_consistent _ _ _ _ _ hkm (by decide)⟩

/-! ## Templates are idempotent -/

theorem fixNetwork_comp_fixNetwork (n : Network) : fixNetwork n ∘ fixNetwork n = fixNetwork n := by
  funext k
  cases k <;> rfl

theorem fixKeyMapEntry_fixKeyMapEntry (n : Network)
    (e : DescriptorPublicKey × DescriptorSecretKey) :
    fixKeyMapEntry n (fixKeyMapEntry n e) = fixKeyMapEntry n e := by
  obtain ⟨k, v⟩ := e
  cases k <;> cases v <;> rfl

/-- **The template path is idempotent.** Its result, taken again as a template with the same
networks, comes back unchanged: retagging twice is retagging once, and the key map it collects
has unique keys already, so collecting it again merges nothing. -/
theorem intoWalletDescriptorTemplate_idempotent {d d' : ExtendedDescriptor} {km km' : KeyMap}
    {nets : ValidNetworks} {n : Network}
    (h : intoWalletDescriptorTemplate (d, km, nets) n = .ok (d', km')) :
    intoWalletDescriptorTemplate (d', km', nets) n = .ok (d', km') := by
  rw [intoWalletDescriptorTemplate_eq] at h ⊢
  split at h
  · rename_i hn
    cases h
    have hfixed : ∀ e ∈ (BTreeMap.collect (km.entries.map (fixKeyMapEntry n))).entries,
        fixKeyMapEntry n e = e := fun e he => by
      obtain ⟨e₀, -, rfl⟩ := List.mem_map.mp (BTreeMap.mem_collect he)
      exact fixKeyMapEntry_fixKeyMapEntry n e₀
    rw [if_pos hn, Descriptor.map_map, fixNetwork_comp_fixNetwork, List.map_congr_left hfixed,
      List.map_id', BTreeMap.collect_entries]
  · cases h

theorem intoWalletDescriptorTemplate_idempotent_xprv :
    ∃ d' km', intoWalletDescriptorTemplate
        (.wpkh (.xPub ⟨none, ⟨.main, ⟨2⟩, ⟨3⟩⟩, [.normal 0], .unhardened⟩),
          ⟨[(.xPub ⟨none, ⟨.main, ⟨2⟩, ⟨3⟩⟩, [.normal 0], .unhardened⟩,
            .xPrv ⟨none, ⟨.main, ⟨5⟩, ⟨3⟩⟩, [.normal 0], .unhardened⟩)], List.nodup_singleton _⟩,
          anyNetwork) .testnet = .ok (d', km') ∧
      intoWalletDescriptorTemplate (d', km', anyNetwork) .testnet = .ok (d', km') := by
  have h : intoWalletDescriptorTemplate
      (.wpkh (.xPub ⟨none, ⟨.main, ⟨2⟩, ⟨3⟩⟩, [.normal 0], .unhardened⟩),
        ⟨[(.xPub ⟨none, ⟨.main, ⟨2⟩, ⟨3⟩⟩, [.normal 0], .unhardened⟩,
          .xPrv ⟨none, ⟨.main, ⟨5⟩, ⟨3⟩⟩, [.normal 0], .unhardened⟩)], List.nodup_singleton _⟩,
        anyNetwork) .testnet = .ok (_, _) := rfl
  exact ⟨_, _, h, intoWalletDescriptorTemplate_idempotent h⟩

/-! ## Only the kind of the network matters -/

section NetworkKind

variable {n n' : Network}

theorem DescriptorPublicKey.validFor_congr (h : n.kind = n'.kind) (k : DescriptorPublicKey) :
    k.ValidFor n ↔ k.ValidFor n' := by
  cases k <;> simp only [ValidFor, h]

theorem fixNetwork_congr (h : n.kind = n'.kind) : fixNetwork n = fixNetwork n' := by
  funext k
  cases k <;> simp only [fixNetwork, h]

theorem fixKeyMapEntry_congr (h : n.kind = n'.kind) : fixKeyMapEntry n = fixKeyMapEntry n' := by
  funext e
  obtain ⟨k, v⟩ := e
  cases k <;> cases v <;> simp only [fixKeyMapEntry, h]

/-- The network check of a pair reads the network only through its kind. -/
theorem intoWalletDescriptorWithKeyMap_congr (h : n.kind = n'.kind) (d : ExtendedDescriptor)
    (km : KeyMap) :
    intoWalletDescriptorWithKeyMap d km n = intoWalletDescriptorWithKeyMap d km n' := by
  have hc : networkCheck d n = networkCheck d n' := funext fun k => by
    simp only [networkCheck_eq, DescriptorPublicKey.validFor_congr h]
  rw [intoWalletDescriptorWithKeyMap, intoWalletDescriptorWithKeyMap, hc]

/-- **`into_wallet_descriptor` tells two networks of one kind apart only by a template's list of
networks.** Keys carry a network kind, not a network, so testnet, testnet4, signet and regtest
give the same answer on every text, descriptor and pair, and on every template that lists both
networks or neither. -/
theorem intoWalletDescriptor_network_kind (g : Grammar)
    (calcChecksum : String → Except DescriptorError String) (src : WalletDescriptorSource)
    (h : n.kind = n'.kind)
    (hnets : ∀ t : DescriptorTemplateOut, src = .template t → (n ∈ t.2.2 ↔ n' ∈ t.2.2)) :
    intoWalletDescriptor g calcChecksum src n = intoWalletDescriptor g calcChecksum src n' := by
  cases src with
  | str s =>
    simp only [intoWalletDescriptor, intoWalletDescriptorStr,
      intoWalletDescriptorWithKeyMap_congr h]
  | descriptor d => exact intoWalletDescriptorWithKeyMap_congr h d _
  | withKeyMap d km => exact intoWalletDescriptorWithKeyMap_congr h d km
  | template t =>
    obtain ⟨d, km, nets⟩ := t
    simp only [intoWalletDescriptor, intoWalletDescriptorTemplate_eq, hnets _ rfl,
      fixNetwork_congr h, fixKeyMapEntry_congr h]

end NetworkKind

theorem intoWalletDescriptor_network_kind_signet :
    Network.testnet.kind = Network.signet.kind ∧
      (∀ t : DescriptorTemplateOut,
        WalletDescriptorSource.template
            (.wpkh (.xPub ⟨none, ⟨.main, ⟨2⟩, ⟨3⟩⟩, [.normal 0], .unhardened⟩), .empty,
              testNetworks) = .template t → (.testnet ∈ t.2.2 ↔ .signet ∈ t.2.2)) ∧
      intoWalletDescriptor Grammar.sample (fun _ => .ok "")
          (.template (.wpkh (.xPub ⟨none, ⟨.main, ⟨2⟩, ⟨3⟩⟩, [.normal 0], .unhardened⟩), .empty,
            testNetworks)) .testnet =
        intoWalletDescriptor Grammar.sample (fun _ => .ok "")
          (.template (.wpkh (.xPub ⟨none, ⟨.main, ⟨2⟩, ⟨3⟩⟩, [.normal 0], .unhardened⟩), .empty,
            testNetworks)) .signet := by
  have hnets : ∀ t : DescriptorTemplateOut,
      WalletDescriptorSource.template
          (.wpkh (.xPub ⟨none, ⟨.main, ⟨2⟩, ⟨3⟩⟩, [.normal 0], .unhardened⟩), .empty,
            testNetworks) = .template t → (.testnet ∈ t.2.2 ↔ .signet ∈ t.2.2) := by
    intro t ht
    cases ht
    decide
  exact ⟨rfl, hnets, intoWalletDescriptor_network_kind _ _ _ rfl hnets⟩

end BdkWallet
