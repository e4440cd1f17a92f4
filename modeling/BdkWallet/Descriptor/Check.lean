import BdkWallet.Descriptor.IntoWallet

/-!
# The wallet's descriptor check

`check_wallet_descriptor` rejects a descriptor with a hardened step or a hardened wildcard
in a single-path extended key, then a multipath descriptor, and otherwise returns the
grammar's sanity check. A multipath key is not inspected for hardened steps, so a descriptor
whose hardened steps all sit in multipath keys is refused as multipath instead.

The wallet derives its addresses, and the matcher its candidate descriptors, from descriptors
this check accepted; what it guarantees them is that the descriptor can be derived at every
normal index, to keys whose public key comes from public derivation alone. Having no
multipath key, an accepted descriptor is also a fixed point of `into_wallet_descriptor` on
the network it was made for.

## Main definitions

* `containsHardenedSteps`: the closure `check_wallet_descriptor` hands to `for_any_key`.
* `checkWalletDescriptor`.
* `DescriptorPublicKey.HasHardenedStep`: a key the wallet cannot derive from publicly.

## Main results

* `intoWalletDescriptor_refeed`: an accepted wallet descriptor, fed back as a pair, is returned
  unchanged.
* `intoWalletDescriptor_derived_validFor`: every key derived from it is on its network.
-/

namespace BdkWallet

/-- The closure of `check_wallet_descriptor`: a single-path extended key with a hardened
wildcard or a hardened step. No other key, a multipath one included, is inspected. -/
def containsHardenedSteps : DescriptorPublicKey → Bool
  | .xPub x => x.wildcard == .hardened || x.derivationPath.any ChildNumber.isHardened
  | _ => false

/-- `check_wallet_descriptor`. -/
def checkWalletDescriptor (g : Grammar) (descriptor : ExtendedDescriptor) :
    Except DescriptorError Unit :=
  if descriptor.forAnyKey containsHardenedSteps then .error .hardenedDerivationXpub
  else if descriptor.isMultipath then
    .error (.miniscript (.badDescriptor
      "`check_wallet_descriptor` must not contain multipath keys"))
  else (g.sanityCheck descriptor).mapError .miniscript

/-! ## Hardened steps -/

/-- A key has a hardened wildcard or a hardened step in a derivation path: a single-path
extended key in its path, a multipath key in any of its paths. A single key has neither. -/
def DescriptorPublicKey.HasHardenedStep : DescriptorPublicKey → Prop
  | .single _ => False
  | .xPub x => x.wildcard = .hardened ∨ ∃ c ∈ x.derivationPath, c.isHardened = true
  | .multiXPub x =>
    x.wildcard = .hardened ∨ ∃ p ∈ x.derivationPaths, ∃ c ∈ p, c.isHardened = true

instance : DecidablePred DescriptorPublicKey.HasHardenedStep := fun
  | .single _ => inferInstanceAs (Decidable False)
  | .xPub x => inferInstanceAs
    (Decidable (x.wildcard = .hardened ∨ ∃ c ∈ x.derivationPath, c.isHardened = true))
  | .multiXPub x => inferInstanceAs (Decidable
    (x.wildcard = .hardened ∨ ∃ p ∈ x.derivationPaths, ∃ c ∈ p, c.isHardened = true))

/-- The closure of the check finds exactly the single-path keys with a hardened step. -/
theorem containsHardenedSteps_eq_true {k : DescriptorPublicKey} :
    containsHardenedSteps k = true ↔ k.HasHardenedStep ∧ k.isMultipath = false := by
  cases k with
  | single => exact ⟨nofun, fun h => h.1.elim⟩
  | xPub x =>
    simp only [containsHardenedSteps, DescriptorPublicKey.HasHardenedStep,
      DescriptorPublicKey.isMultipath, Bool.or_eq_true, beq_iff_eq, List.any_eq_true, and_true]
  | multiXPub => exact ⟨nofun, fun h => nomatch h.2⟩

/-- Every key of an accepted descriptor is free of hardened steps and single-path. -/
theorem checkWalletDescriptor_keys {g : Grammar} {d : ExtendedDescriptor}
    (h : checkWalletDescriptor g d = .ok ()) {k : DescriptorPublicKey} (hk : k ∈ d.keys) :
    containsHardenedSteps k = false ∧ k.isMultipath = false := by
  unfold checkWalletDescriptor at h
  split at h
  · cases h
  split at h
  · cases h
  rename_i hh hm
  simp only [Descriptor.forAnyKey, Descriptor.isMultipath, List.any_eq_true, not_exists,
    not_and, Bool.not_eq_true] at hh hm
  exact ⟨hh k hk, hm k hk⟩

/-- An accepted descriptor has no hardened step or hardened wildcard in any key, and no
multipath key. -/
theorem checkWalletDescriptor_valid {g : Grammar} {d : ExtendedDescriptor}
    (h : checkWalletDescriptor g d = .ok ()) {k : DescriptorPublicKey} (hk : k ∈ d.keys) :
    ¬ k.HasHardenedStep ∧ k.isMultipath = false := by
  obtain ⟨hh, hm⟩ := checkWalletDescriptor_keys h hk
  exact ⟨fun hs => by simp [containsHardenedSteps_eq_true.mpr ⟨hs, hm⟩] at hh, hm⟩

/-- No extended key of an accepted descriptor has a hardened wildcard. -/
theorem wildcard_ne_hardened_of_check {g : Grammar} {d : ExtendedDescriptor}
    (hd : checkWalletDescriptor g d = .ok ()) {x : DescriptorXKey Xpub} (hx : .xPub x ∈ d.keys) :
    x.wildcard ≠ .hardened :=
  fun hw => (checkWalletDescriptor_valid hd hx).1 (.inl hw)

/-- A descriptor whose hardened steps all sit in multipath keys passes the closure and is
refused as multipath, not with `HardenedDerivationXpub`. -/
theorem checkWalletDescriptor_hardened_multipath (g : Grammar) (d : ExtendedDescriptor)
    (hhard : ∃ k ∈ d.keys, k.HasHardenedStep)
    (hsingle : ∀ k ∈ d.keys, k.isMultipath = false → ¬ k.HasHardenedStep) :
    checkWalletDescriptor g d = .error (.miniscript (.badDescriptor
        "`check_wallet_descriptor` must not contain multipath keys")) ∧
      checkWalletDescriptor g d ≠ .error .hardenedDerivationXpub := by
  have hno : d.forAnyKey containsHardenedSteps = false := List.any_eq_false.mpr fun k hk hc =>
    let ⟨hh, hm⟩ := containsHardenedSteps_eq_true.mp hc
    hsingle k hk hm hh
  obtain ⟨k, hk, hh⟩ := hhard
  have hm : d.isMultipath = true := List.any_eq_true.mpr
    ⟨k, hk, (Bool.eq_false_or_eq_true _).resolve_right (hsingle k hk · hh)⟩
  have h : checkWalletDescriptor g d = .error (.miniscript (.badDescriptor
      "`check_wallet_descriptor` must not contain multipath keys")) := by
    simp only [checkWalletDescriptor, hno, hm]
    rfl
  exact ⟨h, h ▸ nofun⟩

theorem checkWalletDescriptor_hardened_multipath_wpkh :
    (∃ k ∈ Descriptor.keys (.wpkh (DescriptorPublicKey.multiXPub ⟨none, ⟨.main, ⟨2⟩, ⟨3⟩⟩,
        [[.hardened 0, .normal 0], [.hardened 0, .normal 1]], .unhardened⟩)), k.HasHardenedStep) ∧
      (∀ k ∈ Descriptor.keys (.wpkh (DescriptorPublicKey.multiXPub ⟨none, ⟨.main, ⟨2⟩, ⟨3⟩⟩,
        [[.hardened 0, .normal 0], [.hardened 0, .normal 1]], .unhardened⟩)),
        k.isMultipath = false → ¬ k.HasHardenedStep) ∧
      checkWalletDescriptor Grammar.sample (.wpkh (.multiXPub ⟨none, ⟨.main, ⟨2⟩, ⟨3⟩⟩,
          [[.hardened 0, .normal 0], [.hardened 0, .normal 1]], .unhardened⟩)) =
        .error (.miniscript (.badDescriptor
          "`check_wallet_descriptor` must not contain multipath keys")) ∧
      checkWalletDescriptor Grammar.sample (.wpkh (.multiXPub ⟨none, ⟨.main, ⟨2⟩, ⟨3⟩⟩,
          [[.hardened 0, .normal 0], [.hardened 0, .normal 1]], .unhardened⟩)) ≠
        .error .hardenedDerivationXpub :=
  ⟨by decide, by decide,
    checkWalletDescriptor_hardened_multipath Grammar.sample _ (by decide) (by decide)⟩

/-! ## Derivation at a normal index -/

/-- A key free of hardened steps and single-path derives at a normal index to a key still
free of hardened steps, whose public key public derivation computes. -/
theorem atDerivationIndex_of_checked {k : DescriptorPublicKey}
    (hh : containsHardenedSteps k = false) (hm : k.isMultipath = false) {i : Nat}
    (hi : i < 2 ^ 31) :
    ∃ dk, k.atDerivationIndex i = .ok dk ∧ containsHardenedSteps dk.key = false ∧
      ∀ secp, ∃ pk, dk.derivePublicKey secp = .ok pk := by
  cases k with
  | single pk =>
    refine ⟨_, rfl, rfl, fun secp => ?_⟩
    rcases pk with ⟨_, _ | _⟩ <;> exact ⟨_, rfl⟩
  | xPub x =>
    simp only [containsHardenedSteps, Bool.or_eq_false_iff, beq_eq_false_iff_ne,
      List.any_eq_false] at hh
    obtain ⟨hw, hp⟩ := hh
    have hpath : ∃ p, x.pathAt i = .ok p ∧ ∀ c ∈ p, c.isHardened = false := by
      unfold DescriptorXKey.pathAt
      rcases hw' : x.wildcard
      · exact ⟨_, rfl, fun c hc => by simpa using hp c hc⟩
      · refine ⟨_, by rw [ChildNumber.fromNormalIdx_of_lt hi]; rfl, fun c hc => ?_⟩
        rcases List.mem_append.mp hc with hc | hc
        · simpa using hp c hc
        · rw [List.mem_singleton.mp hc]; rfl
      · exact absurd hw' hw
    obtain ⟨p, hpi, hpn⟩ := hpath
    refine ⟨_, by rw [DescriptorPublicKey.atDerivationIndex, hpi]; rfl, ?_, fun secp => ?_⟩
    · simp only [containsHardenedSteps, Bool.or_eq_false_iff, List.any_eq_false, Bool.not_eq_true]
      exact ⟨rfl, hpn⟩
    · obtain ⟨y, hy⟩ := x.xkey.derivePub_ok_of_normal secp p hpn
      exact ⟨.new y.publicKey, by simp only [DefiniteDescriptorKey.derivePublicKey, hy]⟩
  | multiXPub x => cases hm

/-- An accepted descriptor derives at every normal index. -/
theorem checkWalletDescriptor_atDerivationIndex_isOk {g : Grammar} {d : ExtendedDescriptor}
    (hd : checkWalletDescriptor g d = .ok ()) {i : Nat} (hi : i < 2 ^ 31) :
    ∃ dd, d.atDerivationIndex i = .ok dd :=
  d.translatePk_isOk fun _ hk =>
    let ⟨dk, h, _⟩ := atDerivationIndex_of_checked (checkWalletDescriptor_keys hd hk).1
      (checkWalletDescriptor_keys hd hk).2 hi
    ⟨dk, h⟩

/-- **An accepted descriptor derives at every normal index**, to a descriptor whose keys
are free of hardened steps and give their public keys by public derivation. -/
theorem checkWalletDescriptor_atDerivationIndex (g : Grammar) (d : ExtendedDescriptor)
    (hd : checkWalletDescriptor g d = .ok ()) (i : Nat) (hi : i < 2 ^ 31) :
    ∃ dd, d.atDerivationIndex i = .ok dd ∧ ∀ k ∈ dd.keys,
      containsHardenedSteps k.key = false ∧ ∀ secp, ∃ pk, k.derivePublicKey secp = .ok pk := by
  obtain ⟨dd, hdd⟩ := checkWalletDescriptor_atDerivationIndex_isOk hd hi
  refine ⟨dd, hdd, fun k hk => ?_⟩
  obtain ⟨k₀, hk₀, hf⟩ := List.Forall₂.exists_right (Descriptor.translatePk_ok hdd) k hk
  obtain ⟨dk, hdk, hrest⟩ := atDerivationIndex_of_checked (checkWalletDescriptor_keys hd hk₀).1
    (checkWalletDescriptor_keys hd hk₀).2 hi
  rw [hf, Except.ok.injEq] at hdk
  exact hdk ▸ hrest

theorem checkWalletDescriptor_atDerivationIndex_five :
    checkWalletDescriptor Grammar.sample
        (.wpkh (.xPub ⟨none, ⟨.main, ⟨2⟩, ⟨3⟩⟩, [.normal 0], .unhardened⟩)) = .ok () ∧
      5 < 2 ^ 31 ∧
      ∃ dd, Descriptor.atDerivationIndex
          (.wpkh (.xPub ⟨none, ⟨.main, ⟨2⟩, ⟨3⟩⟩, [.normal 0], .unhardened⟩)) 5 = .ok dd ∧
        ∀ k ∈ dd.keys, containsHardenedSteps k.key = false ∧
          ∀ secp, ∃ pk, k.derivePublicKey secp = .ok pk :=
  ⟨rfl, by decide, checkWalletDescriptor_atDerivationIndex Grammar.sample _ (by rfl) 5 (by decide)⟩

/-! ## Wallet descriptors are canonical -/

/-- Every key of a wallet descriptor the check accepts is on the network it was made for: the
check leaves no multipath key, the one kind a template does not retag. -/
theorem intoWalletDescriptor_validFor_of_check (g : Grammar)
    (calcChecksum : String → Except DescriptorError String) (src : WalletDescriptorSource)
    (n : Network) {d : ExtendedDescriptor} {km : KeyMap}
    (h : intoWalletDescriptor g calcChecksum src n = .ok (d, km))
    (hd : checkWalletDescriptor g d = .ok ()) : ∀ k ∈ d.keys, k.ValidFor n := fun k hk =>
  intoWalletDescriptor_validFor g calcChecksum src n h k hk (checkWalletDescriptor_keys hd hk).2

/-- **A wallet descriptor the check accepts is a fixed point.** Whatever source it came from,
fed back as a pair on the same network it is returned unchanged with its key map. -/
theorem intoWalletDescriptor_refeed (g : Grammar)
    (calcChecksum : String → Except DescriptorError String) (src : WalletDescriptorSource)
    (n : Network) {d : ExtendedDescriptor} {km : KeyMap}
    (h : intoWalletDescriptor g calcChecksum src n = .ok (d, km))
    (hd : checkWalletDescriptor g d = .ok ()) :
    intoWalletDescriptor g calcChecksum (.withKeyMap d km) n = .ok (d, km) :=
  intoWalletDescriptorWithKeyMap_of_validFor km
    (intoWalletDescriptor_validFor_of_check g calcChecksum src n h hd)

theorem intoWalletDescriptor_refeed_template :
    intoWalletDescriptor Grammar.sample (fun _ => .ok "")
        (.template (.wpkh (.xPub ⟨none, ⟨.main, ⟨2⟩, ⟨3⟩⟩, [.normal 0], .unhardened⟩), .empty,
          anyNetwork)) .testnet =
      .ok (.wpkh (.xPub ⟨none, ⟨.test, ⟨2⟩, ⟨3⟩⟩, [.normal 0], .unhardened⟩), .empty) ∧
    checkWalletDescriptor Grammar.sample
        (.wpkh (.xPub ⟨none, ⟨.test, ⟨2⟩, ⟨3⟩⟩, [.normal 0], .unhardened⟩)) = .ok () ∧
    intoWalletDescriptor Grammar.sample (fun _ => .ok "")
        (.withKeyMap (.wpkh (.xPub ⟨none, ⟨.test, ⟨2⟩, ⟨3⟩⟩, [.normal 0], .unhardened⟩)) .empty)
        .testnet =
      .ok (.wpkh (.xPub ⟨none, ⟨.test, ⟨2⟩, ⟨3⟩⟩, [.normal 0], .unhardened⟩), .empty) := by
  have h : intoWalletDescriptor Grammar.sample (fun _ => .ok "")
      (.template (.wpkh (.xPub ⟨none, ⟨.main, ⟨2⟩, ⟨3⟩⟩, [.normal 0], .unhardened⟩), .empty,
        anyNetwork)) .testnet =
      .ok (.wpkh (.xPub ⟨none, ⟨.test, ⟨2⟩, ⟨3⟩⟩, [.normal 0], .unhardened⟩), .empty) := rfl
  exact ⟨h, rfl, intoWalletDescriptor_refeed _ _ _ _ h (by rfl)⟩

/-! ## Derived keys stay on the network -/

/-- Derivation at an index keeps the network of a key. -/
theorem DescriptorPublicKey.validFor_atDerivationIndex {k : DescriptorPublicKey} {i : Nat}
    {dk : DefiniteDescriptorKey} (h : k.atDerivationIndex i = .ok dk) (n : Network) :
    dk.key.ValidFor n ↔ k.ValidFor n := by
  cases k with
  | single => cases h; rfl
  | xPub x =>
    obtain ⟨p, -, rfl⟩ := Except.map_eq_ok.mp h
    rfl
  | multiXPub => cases h

/-- Derivation at an index keeps every key of a descriptor on the network. -/
theorem Descriptor.validFor_atDerivationIndex {d : ExtendedDescriptor} {i : Nat}
    {dd : DerivedDescriptor} (h : d.atDerivationIndex i = .ok dd) {n : Network}
    (hv : ∀ k ∈ d.keys, k.ValidFor n) : ∀ k ∈ dd.keys, k.key.ValidFor n := fun k hk => by
  obtain ⟨k₀, hk₀, hf⟩ := List.Forall₂.exists_right (Descriptor.translatePk_ok h) k hk
  exact (DescriptorPublicKey.validFor_atDerivationIndex hf n).mpr (hv k₀ hk₀)

/-- **Every key the wallet derives is on its network.** For a descriptor from any source that the
check accepts, the descriptor at every normal index has all its keys on the network it was made
for. -/
theorem intoWalletDescriptor_derived_validFor (g : Grammar)
    (calcChecksum : String → Except DescriptorError String) (src : WalletDescriptorSource)
    (n : Network) {d : ExtendedDescriptor} {km : KeyMap}
    (h : intoWalletDescriptor g calcChecksum src n = .ok (d, km))
    (hd : checkWalletDescriptor g d = .ok ()) {i : Nat} (hi : i < 2 ^ 31) :
    ∃ dd, d.atDerivationIndex i = .ok dd ∧ ∀ k ∈ dd.keys, k.key.ValidFor n := by
  obtain ⟨dd, hdd⟩ := checkWalletDescriptor_atDerivationIndex_isOk hd hi
  exact ⟨dd, hdd, Descriptor.validFor_atDerivationIndex hdd
    (intoWalletDescriptor_validFor_of_check g calcChecksum src n h hd)⟩

theorem intoWalletDescriptor_derived_validFor_template :
    intoWalletDescriptor Grammar.sample (fun _ => .ok "")
        (.template (.wpkh (.xPub ⟨none, ⟨.main, ⟨2⟩, ⟨3⟩⟩, [.normal 0], .unhardened⟩), .empty,
          anyNetwork)) .testnet =
      .ok (.wpkh (.xPub ⟨none, ⟨.test, ⟨2⟩, ⟨3⟩⟩, [.normal 0], .unhardened⟩), .empty) ∧
    checkWalletDescriptor Grammar.sample
        (.wpkh (.xPub ⟨none, ⟨.test, ⟨2⟩, ⟨3⟩⟩, [.normal 0], .unhardened⟩)) = .ok () ∧
    5 < 2 ^ 31 ∧
    ∃ dd, Descriptor.atDerivationIndex
        (.wpkh (.xPub ⟨none, ⟨.test, ⟨2⟩, ⟨3⟩⟩, [.normal 0], .unhardened⟩)) 5 = .ok dd ∧
      ∀ k ∈ dd.keys, k.key.ValidFor .testnet := by
  have h : intoWalletDescriptor Grammar.sample (fun _ => .ok "")
      (.template (.wpkh (.xPub ⟨none, ⟨.main, ⟨2⟩, ⟨3⟩⟩, [.normal 0], .unhardened⟩), .empty,
        anyNetwork)) .testnet =
      .ok (.wpkh (.xPub ⟨none, ⟨.test, ⟨2⟩, ⟨3⟩⟩, [.normal 0], .unhardened⟩), .empty) := rfl
  exact ⟨h, rfl, by decide, intoWalletDescriptor_derived_validFor _ _ _ _ h (by rfl) (by decide)⟩

end BdkWallet
