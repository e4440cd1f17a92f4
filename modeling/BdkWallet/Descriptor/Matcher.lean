import BdkWallet.Descriptor.Check

/-!
# Soundness and completeness of the key-origin matcher

`derive_from_psbt_input` recovers the index at which the wallet's descriptor produced the input
being spent. Its evidence is the input's metadata, which another party supplies: the BIP32 and
taproot key origins, the redeem and witness scripts, and the spent output. This module states
what the code guarantees of its answer, for descriptors the wallet's check accepts.

An evidence entry *backs* an extended key at an index when its fingerprint is the key's root
fingerprint, its path is the key's origin path and path at that index, and re-deriving the key
along that path gives the entry's public key. Every descriptor the matcher finds is the
descriptor at an index that such an entry backs, or for a descriptor without wildcard the
descriptor at index 0 with matching scripts. Conversely, evidence that *identifies* a key at an
index recovers the descriptor at that index.

The matcher never panics on evidence whose paths end in normal steps. The code departs from
its design in three ways, each stated as a theorem: an evidence path whose last step is
hardened makes `verify_key` panic; an entry of another key under the same root fingerprint can
hide the true entry, since the evidence is collected by fingerprint; and a fixed key that comes
first in key order fixes the index at 0 for the whole descriptor.

## Main definitions

* `Backs`: an evidence entry backs an extended key at an index.
* `ScriptMatches`, `BackedByInput`: what backs a descriptor found for an input.
* `Identifies`: evidence from which the matcher finds a key.
* `Grammar.NetworkBlind`: script compilation reads no network tag.

## Main results

* `deriveFromPsbtKeyOrigins_first_backed`: the key-origin search answers the descriptor at the
  index that backs the first backed key, in key order.
* `deriveFromPsbtInput_descType`, `deriveFromPsbtInput_fixed`: what the matcher finds is of the
  wallet descriptor's type, and for a descriptor without wildcard it is the one at index 0.
* `deriveFromPsbtInput_validFor`: for a wallet descriptor, it is on the wallet's network.
* `deriveFromPsbtInput_template`: a template's retagging changes no match.
* `deriveFromPsbtInput_panic`: on an accepted descriptor the only panic is `verify_key`'s.
-/

namespace BdkWallet

/-! ## The early-exit search

`for_any_key`, with a closure that records the index it accepts, is `List.findSomeM?` over the
keys in `for_each_key` order, in the panic monad. -/

namespace List

variable {α β ε : Type} {f : α → Except ε (Option β)}

/-- Elements on which the callback answers `none` are passed over. -/
theorem findSomeM_append_of_none {l₁ : List α} (l₂ : List α) (h : ∀ a ∈ l₁, f a = .ok none) :
    (l₁ ++ l₂).findSomeM? f = l₂.findSomeM? f := by
  induction l₁ with
  | nil => rfl
  | cons a l₁ ih =>
    rw [List.cons_append, List.findSomeM?, h a (List.mem_cons_self _ _)]
    exact ih fun x hx => h x (List.mem_cons_of_mem _ hx)

/-- The search stops at the first element on which the callback answers. -/
theorem findSomeM_cons_of_some {a : α} {b : β} (l : List α) (h : f a = .ok (some b)) :
    (a :: l).findSomeM? f = .ok (some b) := by
  rw [List.findSomeM?, h]; rfl

/-- An answer of the search is the answer of one element. -/
theorem exists_of_findSomeM_eq_ok_some {l : List α} {b : β} (h : l.findSomeM? f = .ok (some b)) :
    ∃ a ∈ l, f a = .ok (some b) := by
  induction l with
  | nil => cases h
  | cons a l ih =>
    obtain ⟨_ | b', ha, h⟩ := Except.bind_eq_ok.mp h
    · obtain ⟨x, hx, hfx⟩ := ih h
      exact ⟨x, List.mem_cons_of_mem _ hx, hfx⟩
    · cases h
      exact ⟨a, List.mem_cons_self _ _, ha⟩

/-- A search whose callback never fails does not fail. -/
theorem findSomeM_isOk {l : List α} (h : ∀ a ∈ l, ∃ r, f a = .ok r) :
    ∃ r, l.findSomeM? f = .ok r := by
  induction l with
  | nil => exact ⟨none, rfl⟩
  | cons a l ih =>
    obtain ⟨r, hr⟩ := h a (List.mem_cons_self _ _)
    rw [List.findSomeM?, hr, Except.ok_bind]
    cases r with
    | none => exact ih fun x hx => h x (List.mem_cons_of_mem _ hx)
    | some b => exact ⟨_, rfl⟩

/-- A search that answers nothing had every callback answer nothing. -/
theorem findSomeM_eq_ok_none {l : List α} (h : l.findSomeM? f = .ok none) :
    ∀ a ∈ l, f a = .ok none := by
  induction l with
  | nil => nofun
  | cons a l ih =>
    obtain ⟨_ | b, ha, h⟩ := Except.bind_eq_ok.mp h
    · exact List.forall_mem_cons.mpr ⟨ha, ih h⟩
    · cases h

/-- A search that answers stopped at an element after elements that answered nothing. -/
theorem findSomeM_eq_ok_some {l : List α} {b : β} (h : l.findSomeM? f = .ok (some b)) :
    ∃ l₁ a l₂, l = l₁ ++ a :: l₂ ∧ (∀ x ∈ l₁, f x = .ok none) ∧ f a = .ok (some b) := by
  induction l with
  | nil => cases h
  | cons a l ih =>
    obtain ⟨_ | b', ha, h⟩ := Except.bind_eq_ok.mp h
    · obtain ⟨l₁, a', l₂, rfl, h₁, ha'⟩ := ih h
      exact ⟨a :: l₁, a', l₂, rfl, List.forall_mem_cons.mpr ⟨ha, h₁⟩, ha'⟩
    · cases h
      exact ⟨[], a, l, rfl, nofun, ha⟩

/-- Searching a mapped list is searching with the callback after the map. -/
theorem findSomeM_map {α' : Type} {g : α' → α} :
    ∀ l : List α', (l.map g).findSomeM? f = l.findSomeM? (f ∘ g)
  | [] => rfl
  | a :: l => by rw [List.map_cons, List.findSomeM?, List.findSomeM?, findSomeM_map l]; rfl

/-- A search that fails failed on one element. -/
theorem findSomeM_eq_error {l : List α} {e : ε} (h : l.findSomeM? f = .error e) :
    ∃ a ∈ l, f a = .error e := by
  induction l with
  | nil => cases h
  | cons a l ih =>
    rcases Except.bind_eq_error.mp h with ha | ⟨_ | b, ha, h⟩
    · exact ⟨a, List.mem_cons_self _ _, ha⟩
    · obtain ⟨x, hx, hfx⟩ := ih h
      exact ⟨x, List.mem_cons_of_mem _ hx, hfx⟩
    · cases h

/-- The search reads the callback only on the elements of the list. -/
theorem findSomeM_congr {g : α → Except ε (Option β)} {l : List α} (h : ∀ a ∈ l, f a = g a) :
    l.findSomeM? f = l.findSomeM? g := by
  induction l with
  | nil => rfl
  | cons a l ih =>
    rw [List.findSomeM?, List.findSomeM?, h a (List.mem_cons_self _ _),
      ih fun b hb => h b (List.mem_cons_of_mem _ hb)]

end List

/-! ## Evidence -/

/-- The path of `x`'s origin, empty when it has none. -/
def DescriptorXKey.originPath (x : DescriptorXKey Xpub) : DerivationPath :=
  match x.origin with
  | some (_, path) => path
  | none => []

variable (secp : SecpCtx)

/-- The evidence entry `(fingerprint, path, expected)` backs the extended key `x` at `index`:
the index is 0 when `x` is fixed, the fingerprint is `x`'s root fingerprint, the path is `x`'s
origin path followed by its path at `index`, and deriving `x` along its path at `index` gives
`expected`. -/
structure Backs (x : DescriptorXKey Xpub) (index : Nat)
    (entry : Fingerprint × DerivationPath × SinglePubKey) : Prop where
  index_fixed : x.wildcard = .none → index = 0
  fingerprint_eq : entry.1 = x.rootFingerprint secp
  derived : ∃ p, x.pathAt index = .ok p ∧ entry.2.1 = x.originPath ++ p ∧
    ∃ y, x.xkey.derivePub secp p = .ok y ∧ entry.2.2.IsKeyOf secp y.publicKey

/-- The path of a key without hardened wildcard at an index it can take. -/
theorem DescriptorXKey.pathAt_eq_ok {x : DescriptorXKey Xpub} {index : Nat} {p : DerivationPath}
    (hw : x.wildcard ≠ .hardened) (h : x.pathAt index = .ok p) :
    (x.wildcard = .none ∧ p = x.derivationPath) ∨
      (x.wildcard = .unhardened ∧
        ∃ hi : index < 2 ^ 31, p = x.derivationPath ++ [.normal ⟨index, hi⟩]) := by
  unfold pathAt at h
  rcases hx : x.wildcard
  · rw [hx] at h; cases h; exact .inl ⟨rfl, rfl⟩
  · rw [hx] at h
    unfold ChildNumber.fromNormalIdx at h
    split_ifs at h with hi
    · cases h; exact .inr ⟨rfl, hi, rfl⟩
    · cases h
  · exact absurd hx hw

/-- An index an entry backs is normal. -/
theorem Backs.index_lt {x : DescriptorXKey Xpub} {i : Nat}
    {e : Fingerprint × DerivationPath × SinglePubKey} (hb : Backs secp x i e) : i < 2 ^ 31 := by
  obtain ⟨hfix, -, p, hp, -⟩ := hb
  unfold DescriptorXKey.pathAt ChildNumber.fromNormalIdx ChildNumber.fromHardenedIdx at hp
  rcases hx : x.wildcard <;> rw [hx] at hp
  · rw [hfix hx]; norm_num
  all_goals split_ifs at hp with hi
  all_goals first | exact hi | cases hp

/-- An entry backs a key at one index only. -/
theorem Backs.index_eq {x : DescriptorXKey Xpub} {i j : Nat}
    {e : Fingerprint × DerivationPath × SinglePubKey} (hw : x.wildcard ≠ .hardened)
    (hi : Backs secp x i e) (hj : Backs secp x j e) : i = j := by
  obtain ⟨hfi, -, p, hp, hep, -⟩ := hi
  obtain ⟨hfj, -, q, hq, heq, -⟩ := hj
  obtain rfl : p = q := List.append_cancel_left (hep.symm.trans heq)
  rcases x.pathAt_eq_ok hw hp with ⟨hx, -⟩ | ⟨hx, _, hpi⟩
  · rw [hfi hx, hfj hx]
  · rcases x.pathAt_eq_ok hw hq with ⟨hx', -⟩ | ⟨-, _, hpj⟩
    · rw [hx] at hx'; cases hx'
    · simpa using hpi.symm.trans hpj

/-! ## The closure

The closure `derive_from_psbt_key_origins` hands to `for_any_key`, read through `matches`, the
`derive_path` it computes and the index it accepts. -/

/-- `matches` compares against `x`'s root fingerprint and its origin path followed by its
path. -/
theorem DescriptorXKey.matches_eq (x : DescriptorXKey Xpub) (fingerprint : Fingerprint)
    (path : DerivationPath) :
    x.matches secp (fingerprint, path) =
      if x.rootFingerprint secp = fingerprint ∧ x.originPath ++ x.derivationPath =
          (if x.wildcard ≠ .none ∧ path ≠ [] then path.dropLast else path) then
        some (if x.wildcard ≠ .none ∧ path ≠ [] then path.dropLast else path)
      else none := by
  obtain ⟨_ | ⟨_, _⟩, _, _, _⟩ := x <;> rfl

/-- `matches` accepts a key source under `x`'s root fingerprint whose path is `x`'s origin path
and path, followed by one step when `x` has a wildcard; the prefix it returns is that origin
path and path. -/
theorem DescriptorXKey.matches_eq_some {x : DescriptorXKey Xpub} {fingerprint : Fingerprint}
    {path pre : DerivationPath} (h : x.matches secp (fingerprint, path) = some pre) :
    fingerprint = x.rootFingerprint secp ∧ pre = x.originPath ++ x.derivationPath ∧
      path = pre ++ path.drop pre.length ∧
      (path.drop pre.length = [] ∨ x.wildcard ≠ .none ∧ (path.drop pre.length).length = 1) := by
  rw [matches_eq] at h
  split_ifs at h with hw hc hc' <;> cases h
  · refine ⟨hc.1.symm, hc.2.symm, ?_, .inr ⟨hw.1, ?_⟩⟩
    · rw [List.length_dropLast, List.dropLast_eq_take, List.take_append_drop]
    · have := List.length_pos.mpr hw.2
      simp only [List.length_drop, List.length_dropLast]
      omega
  · exact ⟨hc'.1.symm, hc'.2.symm, by simp, .inl (by simp)⟩

/-- The `derive_path` of an accepted key source is empty or the last step of its path. -/
theorem DescriptorXKey.mem_getLast_of_matches {x : DescriptorXKey Xpub}
    {fingerprint : Fingerprint} {path pre : DerivationPath}
    (h : x.matches secp (fingerprint, path) = some pre) {c : ChildNumber}
    (hc : c ∈ path.drop pre.length) : c ∈ path.getLast? := by
  obtain ⟨-, -, hpath, hdp | ⟨-, hl⟩⟩ := x.matches_eq_some secp h
  · rw [hdp] at hc; cases hc
  · obtain ⟨c', hc'⟩ := List.length_eq_one.mp hl
    rw [hc', List.mem_singleton] at hc
    rw [hpath, hc', hc]
    simp

/-- `derive_path` found: the entry under `x`'s root fingerprint holds `x`'s origin path and
path followed by `derive_path`, which is empty or, for a key with a wildcard, one step, and
`verify_key` confirmed it. -/
theorem derivePathOf_eq_ok_some {K : KeyOrigins} {x : DescriptorXKey Xpub} {dp : DerivationPath}
    (h : derivePathOf secp K x = .ok (some dp)) :
    ∃ expected, K.getKeyValue (x.rootFingerprint secp) =
        some (x.rootFingerprint secp, (x.originPath ++ x.derivationPath ++ dp, expected)) ∧
      (dp = [] ∨ x.wildcard ≠ .none ∧ dp.length = 1) ∧
      verifyKey secp x (x.derivationPath ++ dp) expected = .ok true := by
  unfold derivePathOf at h
  split at h
  · cases h
  rename_i fp path expected hget
  split at h
  · cases h
  rename_i pre hm
  obtain ⟨rfl, rfl, hpath, hdp⟩ := x.matches_eq_some secp hm
  obtain ⟨_ | _, hv, h⟩ := Except.bind_eq_ok.mp h <;> cases h
  exact ⟨expected, by rw [hget, ← hpath], hdp, hv⟩

/-- `derive_path` is found from an entry that holds `x`'s origin path and path followed by one
step for a key with a wildcard, or nothing for a fixed key, when `verify_key` confirms it. -/
theorem derivePathOf_of_eq {K : KeyOrigins} {x : DescriptorXKey Xpub} {s : DerivationPath}
    {expected : SinglePubKey}
    (hget : K.getKeyValue (x.rootFingerprint secp) =
      some (x.rootFingerprint secp, (x.originPath ++ x.derivationPath ++ s, expected)))
    (hs : x.wildcard ≠ .none ∧ s.length = 1 ∨ x.wildcard = .none ∧ s = [])
    (hv : verifyKey secp x (x.derivationPath ++ s) expected = .ok true) :
    derivePathOf secp K x = .ok (some s) := by
  have hm : x.matches secp (x.rootFingerprint secp, x.originPath ++ x.derivationPath ++ s) =
      some (x.originPath ++ x.derivationPath) := by
    rw [DescriptorXKey.matches_eq]
    rcases hs with ⟨hw, hl⟩ | ⟨hw, rfl⟩
    · obtain ⟨c, rfl⟩ := List.length_eq_one.mp hl
      simp [hw]
    · simp [hw]
  unfold derivePathOf
  rw [hget]
  simp only [hm, List.drop_left, hv, Except.ok_bind]
  rfl

/-- The final match of the closure accepts a normal step for a key with a wildcard, and the
empty path, as index 0, for a fixed key. -/
theorem acceptedIndex_eq_some {x : DescriptorXKey Xpub} {dp : DerivationPath} {i : Nat}
    (h : acceptedIndex x (some dp) = some i) :
    (x.wildcard ≠ .none ∧ ∃ idx : Fin (2 ^ 31), dp = [.normal idx] ∧ i = idx) ∨
      (x.wildcard = .none ∧ dp = [] ∧ i = 0) := by
  simp only [acceptedIndex] at h
  split_ifs at h with h₁ h₂
  · split at h
    · cases h; exact .inl ⟨h₁.1, _, rfl, rfl⟩
    · cases h
  · cases h; exact .inr ⟨h₂.1, h₂.2, rfl⟩

/-- **The closure accepts only backed evidence.** An index it accepts for a key without a
hardened wildcard is backed by the entry under the key's root fingerprint. -/
theorem backs_of_matchKey {K : KeyOrigins} {x : DescriptorXKey Xpub} {i : Nat}
    (hw : x.wildcard ≠ .hardened) (h : matchKey secp K (.xPub x) = .ok (some i)) :
    ∃ e, K.getKeyValue (x.rootFingerprint secp) = some e ∧ Backs secp x i e := by
  obtain ⟨_ | dp, hd, h⟩ := Except.map_eq_ok.mp h
  · cases h
  obtain ⟨expected, hget, -, hv⟩ := derivePathOf_eq_ok_some secp hd
  obtain ⟨y, hy, hkey⟩ := (verifyKey_eq_ok_true secp).mp hv
  refine ⟨_, hget, ?_⟩
  rcases acceptedIndex_eq_some h with ⟨hw', idx, rfl, rfl⟩ | ⟨hw', rfl, rfl⟩
  · have hu : x.wildcard = .unhardened := by cases hx : x.wildcard <;> simp_all
    refine ⟨fun h' => absurd h' hw', rfl, _, ?_, List.append_assoc _ _ _, y, hy, hkey⟩
    rw [DescriptorXKey.pathAt, hu, ChildNumber.fromNormalIdx_of_lt idx.isLt]
    rfl
  · exact ⟨fun _ => rfl, rfl, x.derivationPath, by rw [DescriptorXKey.pathAt, hw'],
      by simp, y, by simpa using hy, hkey⟩

/-- **The closure accepts backed evidence** for a key without a hardened wildcard, when the
evidence is what the lookup under the key's root fingerprint finds. -/
theorem matchKey_of_backs {K : KeyOrigins} {x : DescriptorXKey Xpub} {i : Nat}
    {e : Fingerprint × DerivationPath × SinglePubKey} (hw : x.wildcard ≠ .hardened)
    (hget : K.getKeyValue (x.rootFingerprint secp) = some e) (hb : Backs secp x i e) :
    matchKey secp K (.xPub x) = .ok (some i) := by
  obtain ⟨fp, path, expected⟩ := e
  obtain ⟨hfix, hfp, p, hp, hpath, y, hy, hkey⟩ := hb
  dsimp only at hfp hpath hkey
  subst hfp hpath
  rcases x.pathAt_eq_ok hw hp with ⟨hx, rfl⟩ | ⟨hx, hi, rfl⟩
  · obtain rfl := hfix hx
    have hd : derivePathOf secp K x = .ok (some []) :=
      derivePathOf_of_eq secp (by simpa using hget) (.inr ⟨hx, rfl⟩)
        ((verifyKey_eq_ok_true secp).mpr ⟨y, by simpa using hy, hkey⟩)
    simp [matchKey, hd, acceptedIndex, hx]
  · have hd : derivePathOf secp K x = .ok (some [.normal ⟨i, hi⟩]) :=
      derivePathOf_of_eq secp (by simpa using hget) (.inl ⟨by simp [hx], rfl⟩)
        ((verifyKey_eq_ok_true secp).mpr ⟨y, hy, hkey⟩)
    simp [matchKey, hd, acceptedIndex, hx]

/-- The closure reads the key-origin map only under the key's root fingerprint. -/
theorem matchKey_congr {K K' : KeyOrigins} {x : DescriptorXKey Xpub}
    (h : K.getKeyValue (x.rootFingerprint secp) = K'.getKeyValue (x.rootFingerprint secp)) :
    matchKey secp K (.xPub x) = matchKey secp K' (.xPub x) := by
  simp only [matchKey, derivePathOf, h]

/-- A key that rejects every entry on its own rejects the map collected from them. -/
theorem matchKey_collect_eq_ok_none {es : List (Fingerprint × DerivationPath × SinglePubKey)}
    {k : DescriptorPublicKey} (h : ∀ e ∈ es, matchKey secp (BTreeMap.collect [e]) k = .ok none) :
    matchKey secp (BTreeMap.collect es) k = .ok none := by
  cases k with
  | xPub y =>
    cases hget : (BTreeMap.collect es).getKeyValue (y.rootFingerprint secp) with
    | none => simp only [matchKey, derivePathOf, hget]; rfl
    | some e =>
      obtain ⟨he1, he⟩ := BTreeMap.getKeyValue_eq_some hget
      have h1 : (BTreeMap.collect [e]).getKeyValue (y.rootFingerprint secp) = some e := by
        rw [← he1]
        exact BTreeMap.getKeyValue_collect_of_unique (List.mem_singleton_self e) fun e' he' _ =>
          List.mem_singleton.mp he'
      rw [matchKey_congr secp (hget.trans h1.symm)]
      exact h e (BTreeMap.mem_collect he)
  | single => rfl
  | multiXPub => rfl

/-- The closure does not panic on a key free of hardened steps when the entry under its root
fingerprint ends in a normal step. -/
theorem matchKey_isOk {K : KeyOrigins} {k : DescriptorPublicKey}
    (hk : containsHardenedSteps k = false)
    (hK : ∀ e ∈ K.entries, ∀ c ∈ e.2.1.getLast?, c.isHardened = false) :
    ∃ r, matchKey secp K k = .ok r := by
  cases k with
  | single => exact ⟨none, rfl⟩
  | multiXPub => exact ⟨none, rfl⟩
  | xPub x =>
    simp only [containsHardenedSteps, Bool.or_eq_false_iff, List.any_eq_false,
      Bool.not_eq_true] at hk
    suffices ∃ r, derivePathOf secp K x = .ok r from
      let ⟨r, hr⟩ := this
      ⟨_, Except.map_eq_ok.mpr ⟨r, hr, rfl⟩⟩
    unfold derivePathOf
    split
    · exact ⟨none, rfl⟩
    rename_i fp path expected hget
    split
    · exact ⟨none, rfl⟩
    rename_i pre hm
    have hnormal : ∀ c ∈ x.derivationPath ++ path.drop pre.length, c.isHardened = false :=
      List.forall_mem_append.mpr ⟨hk.2, fun c hc =>
        hK _ (BTreeMap.getKeyValue_eq_some hget).2 c (x.mem_getLast_of_matches secp hm hc)⟩
    obtain ⟨b, hb⟩ := verifyKey_isOk secp hnormal expected
    dsimp only
    rw [hb, Except.ok_bind]
    cases b <;> exact ⟨_, rfl⟩

/-- The closure panics only in `verify_key`. -/
theorem derivePathOf_eq_error {K : KeyOrigins} {x : DescriptorXKey Xpub} {p : Panic}
    (h : derivePathOf secp K x = .error p) :
    p = ⟨"The path should never contain hardened derivation steps"⟩ := by
  unfold derivePathOf at h
  split at h
  · cases h
  split at h
  · cases h
  rcases Except.bind_eq_error.mp h with hv | ⟨_, -, h⟩
  · exact verifyKey_eq_error secp hv
  · split at h <;> cases h

theorem matchKey_eq_error {K : KeyOrigins} {k : DescriptorPublicKey} {p : Panic}
    (h : matchKey secp K k = .error p) :
    p = ⟨"The path should never contain hardened derivation steps"⟩ := by
  cases k with
  | xPub x => exact derivePathOf_eq_error secp (Except.map_eq_error.mp h)
  | _ => cases h

/-! ## The search over the keys -/

/-- A descriptor found from key origins: the closure accepted a key of the descriptor at an
index, and the descriptor derives at it. -/
theorem deriveFromPsbtKeyOrigins_eq_ok_some {d : ExtendedDescriptor} {K : KeyOrigins}
    {dd : DerivedDescriptor} (h : deriveFromPsbtKeyOrigins secp d K = .ok (some dd)) :
    ∃ k ∈ d.keys, ∃ i, matchKey secp K k = .ok (some i) ∧ d.atDerivationIndex i = .ok dd := by
  obtain ⟨_ | i, hf, h⟩ := Except.bind_eq_ok.mp h
  · cases h
  obtain ⟨dd', ha, ⟨⟩⟩ := Except.map_eq_ok.mp h
  obtain ⟨k, hk, hki⟩ := List.exists_of_findSomeM_eq_ok_some hf
  exact ⟨k, hk, i, hki, expect_eq_ok.mp ha⟩

/-- The first key the closure accepts fixes the index. -/
theorem deriveFromPsbtKeyOrigins_of_first {d : ExtendedDescriptor} {K : KeyOrigins}
    {before after : List DescriptorPublicKey} {k : DescriptorPublicKey} {i : Nat}
    {dd : DerivedDescriptor} (hkeys : d.keys = before ++ k :: after)
    (hbefore : ∀ k' ∈ before, matchKey secp K k' = .ok none)
    (hk : matchKey secp K k = .ok (some i)) (hdd : d.atDerivationIndex i = .ok dd) :
    deriveFromPsbtKeyOrigins secp d K = .ok (some dd) := by
  unfold deriveFromPsbtKeyOrigins
  rw [hkeys, List.findSomeM_append_of_none _ hbefore, List.findSomeM_cons_of_some _ hk]
  simp [hdd]

/-- A search on which every key's closure answers nothing answers nothing. -/
theorem deriveFromPsbtKeyOrigins_of_none {d : ExtendedDescriptor} {K : KeyOrigins}
    (h : ∀ k ∈ d.keys, matchKey secp K k = .ok none) :
    deriveFromPsbtKeyOrigins secp d K = .ok none := by
  rw [deriveFromPsbtKeyOrigins, ← List.append_nil d.keys, List.findSomeM_append_of_none [] h]
  rfl

/-- **The search, in full.** The matcher answers `None` exactly when the closure rejects every key
without a panic, and it answers `dd` exactly when some key is accepted at an index after every
key before it, in key order, was rejected: the first key accepted fixes the index. -/
theorem deriveFromPsbtKeyOrigins_spec (d : ExtendedDescriptor) (K : KeyOrigins) :
    (deriveFromPsbtKeyOrigins secp d K = .ok none ↔ ∀ k ∈ d.keys, matchKey secp K k = .ok none) ∧
    ∀ dd, deriveFromPsbtKeyOrigins secp d K = .ok (some dd) ↔
      ∃ before k after i, d.keys = before ++ k :: after ∧
        (∀ k' ∈ before, matchKey secp K k' = .ok none) ∧ matchKey secp K k = .ok (some i) ∧
        d.atDerivationIndex i = .ok dd := by
  refine ⟨⟨fun h => ?_, fun h => ?_⟩, fun dd => ⟨fun h => ?_, ?_⟩⟩
  · obtain ⟨_ | i, hf, h⟩ := Except.bind_eq_ok.mp h
    · exact List.findSomeM_eq_ok_none hf
    · obtain ⟨_, -, h⟩ := Except.map_eq_ok.mp h
      cases h
  · exact deriveFromPsbtKeyOrigins_of_none secp h
  · obtain ⟨_ | i, hf, h⟩ := Except.bind_eq_ok.mp h
    · cases h
    obtain ⟨dd', ha, ⟨⟩⟩ := Except.map_eq_ok.mp h
    obtain ⟨before, k, after, hkeys, hbefore, hk⟩ := List.findSomeM_eq_ok_some hf
    exact ⟨before, k, after, i, hkeys, hbefore, hk, expect_eq_ok.mp ha⟩
  · rintro ⟨before, k, after, i, hkeys, hbefore, hk, hdd⟩
    exact deriveFromPsbtKeyOrigins_of_first secp hkeys hbefore hk hdd

/-! ## What the search reads -/

/-- **The matcher reads the evidence only under the root fingerprints of the descriptor's
single-path extended keys.** Two key-origin maps that agree there give the same answer, whatever
else they hold. -/
theorem deriveFromPsbtKeyOrigins_frame {d : ExtendedDescriptor} {K K' : KeyOrigins}
    (h : ∀ x, .xPub x ∈ d.keys →
      K.getKeyValue (x.rootFingerprint secp) = K'.getKeyValue (x.rootFingerprint secp)) :
    deriveFromPsbtKeyOrigins secp d K = deriveFromPsbtKeyOrigins secp d K' := by
  have hs : d.keys.findSomeM? (matchKey secp K) = d.keys.findSomeM? (matchKey secp K') :=
    List.findSomeM_congr fun k hk => by
      cases k with
      | xPub x => exact matchKey_congr secp (h x hk)
      | _ => rfl
  rw [deriveFromPsbtKeyOrigins, deriveFromPsbtKeyOrigins, hs]

theorem deriveFromPsbtKeyOrigins_frame_other_entry :
    (∀ x, DescriptorPublicKey.xPub x ∈ Descriptor.keys
        (.wpkh (DescriptorPublicKey.xPub ⟨some (⟨7⟩, []), ⟨.main, ⟨2⟩, ⟨3⟩⟩, [.normal 0],
          .unhardened⟩)) →
      BTreeMap.getKeyValue (⟨[(⟨7⟩, ([.normal 0, .normal 5], .fullKey (.new ⟨6⟩))),
          (⟨9⟩, ([.normal 1], .fullKey (.new ⟨4⟩)))], by decide⟩ : KeyOrigins)
          (x.rootFingerprint SecpCtx.sample) =
        BTreeMap.getKeyValue (⟨[(⟨7⟩, ([.normal 0, .normal 5], .fullKey (.new ⟨6⟩)))],
          List.nodup_singleton _⟩ : KeyOrigins) (x.rootFingerprint SecpCtx.sample)) ∧
    deriveFromPsbtKeyOrigins SecpCtx.sample
        (.wpkh (.xPub ⟨some (⟨7⟩, []), ⟨.main, ⟨2⟩, ⟨3⟩⟩, [.normal 0], .unhardened⟩))
        ⟨[(⟨7⟩, ([.normal 0, .normal 5], .fullKey (.new ⟨6⟩))),
          (⟨9⟩, ([.normal 1], .fullKey (.new ⟨4⟩)))], by decide⟩ =
      deriveFromPsbtKeyOrigins SecpCtx.sample
        (.wpkh (.xPub ⟨some (⟨7⟩, []), ⟨.main, ⟨2⟩, ⟨3⟩⟩, [.normal 0], .unhardened⟩))
        ⟨[(⟨7⟩, ([.normal 0, .normal 5], .fullKey (.new ⟨6⟩)))], List.nodup_singleton _⟩ := by
  have h : ∀ x, DescriptorPublicKey.xPub x ∈ Descriptor.keys
      (.wpkh (DescriptorPublicKey.xPub ⟨some (⟨7⟩, []), ⟨.main, ⟨2⟩, ⟨3⟩⟩, [.normal 0],
        .unhardened⟩)) →
      BTreeMap.getKeyValue (⟨[(⟨7⟩, ([.normal 0, .normal 5], .fullKey (.new ⟨6⟩))),
          (⟨9⟩, ([.normal 1], .fullKey (.new ⟨4⟩)))], by decide⟩ : KeyOrigins)
          (x.rootFingerprint SecpCtx.sample) =
        BTreeMap.getKeyValue (⟨[(⟨7⟩, ([.normal 0, .normal 5], .fullKey (.new ⟨6⟩)))],
          List.nodup_singleton _⟩ : KeyOrigins) (x.rootFingerprint SecpCtx.sample) := by
    intro x hx
    cases List.mem_singleton.mp hx
    rfl
  exact ⟨h, deriveFromPsbtKeyOrigins_frame SecpCtx.sample h⟩

/-- **Evidence about other keys gives no match.** A key-origin map with no entry under the root
fingerprint of any single-path extended key of the descriptor yields `None`, without a panic. -/
theorem deriveFromPsbtKeyOrigins_unrelated {d : ExtendedDescriptor} {K : KeyOrigins}
    (h : ∀ e ∈ K.entries, ∀ x, .xPub x ∈ d.keys → e.1 ≠ x.rootFingerprint secp) :
    deriveFromPsbtKeyOrigins secp d K = .ok none := by
  refine deriveFromPsbtKeyOrigins_of_none secp fun k hk => ?_
  cases k with
  | xPub x =>
    have hget : K.getKeyValue (x.rootFingerprint secp) = none :=
      List.find?_eq_none.mpr fun e he => by simpa using h e he x hk
    simp only [matchKey, derivePathOf, hget]
    rfl
  | _ => rfl

theorem deriveFromPsbtKeyOrigins_unrelated_fingerprint :
    (∀ e ∈ (⟨[(⟨9⟩, ([.normal 0, .normal 5], .fullKey (.new ⟨6⟩)))], List.nodup_singleton _⟩ :
        KeyOrigins).entries, ∀ x, DescriptorPublicKey.xPub x ∈ Descriptor.keys
          (.wpkh (DescriptorPublicKey.xPub ⟨some (⟨7⟩, []), ⟨.main, ⟨2⟩, ⟨3⟩⟩, [.normal 0],
            .unhardened⟩)) → e.1 ≠ x.rootFingerprint SecpCtx.sample) ∧
    deriveFromPsbtKeyOrigins SecpCtx.sample
        (.wpkh (.xPub ⟨some (⟨7⟩, []), ⟨.main, ⟨2⟩, ⟨3⟩⟩, [.normal 0], .unhardened⟩))
        ⟨[(⟨9⟩, ([.normal 0, .normal 5], .fullKey (.new ⟨6⟩)))], List.nodup_singleton _⟩ =
      .ok none := by
  have h : ∀ e ∈ (⟨[(⟨9⟩, ([.normal 0, .normal 5], .fullKey (.new ⟨6⟩)))],
      List.nodup_singleton _⟩ : KeyOrigins).entries, ∀ x, DescriptorPublicKey.xPub x ∈
        Descriptor.keys (.wpkh (DescriptorPublicKey.xPub ⟨some (⟨7⟩, []), ⟨.main, ⟨2⟩, ⟨3⟩⟩,
          [.normal 0], .unhardened⟩)) → e.1 ≠ x.rootFingerprint SecpCtx.sample := by
    intro e he x hx
    cases List.mem_singleton.mp hx
    cases List.mem_singleton.mp he
    decide
  exact ⟨h, deriveFromPsbtKeyOrigins_unrelated SecpCtx.sample h⟩

/-! ## Soundness -/

/-- **Soundness of the key-origin matcher.** A descriptor found for an accepted descriptor,
from evidence collected out of `es` by `toKeyOrigin`, is the descriptor at a normal index that
an entry of `es` backs for one of its extended keys. -/
theorem deriveFromPsbtKeyOrigins_sound {γ : Type} {g : Grammar} {d : ExtendedDescriptor}
    (hd : checkWalletDescriptor g d = .ok ()) {es : List γ}
    {toKeyOrigin : γ → Fingerprint × DerivationPath × SinglePubKey} {dd : DerivedDescriptor}
    (h : deriveFromPsbtKeyOrigins secp d (BTreeMap.collect (es.map toKeyOrigin)) =
      .ok (some dd)) :
    ∃ i < 2 ^ 31, d.atDerivationIndex i = .ok dd ∧
      ∃ x, .xPub x ∈ d.keys ∧ ∃ e ∈ es, Backs secp x i (toKeyOrigin e) := by
  obtain ⟨k, hk, i, hki, hdd⟩ := deriveFromPsbtKeyOrigins_eq_ok_some secp h
  cases k with
  | xPub x =>
    obtain ⟨e, hget, hb⟩ := backs_of_matchKey secp (wildcard_ne_hardened_of_check hd hk) hki
    obtain ⟨e', he', rfl⟩ :=
      List.mem_map.mp (BTreeMap.mem_collect (BTreeMap.getKeyValue_eq_some hget).2)
    exact ⟨i, hb.index_lt, hdd, x, hk, e', he', hb⟩
  | single => cases hki
  | multiXPub => cases hki

/-- The scripts the fixed-index fallback compares for `descriptor`, by its type: the spent
output's for a single-key or taproot descriptor, the redeem script for a bare or `sh` one, the
witness script for a `wsh` one. -/
def ScriptMatches (g : Grammar) (descriptor : DerivedDescriptor) (psbtInput : Input)
    (utxo : Option TxOut) : Prop :=
  match descriptor.descType with
  | .pkh | .wpkh | .shWpkh | .tr => ∃ u, utxo = some u ∧ g.scriptPubkey descriptor = u.scriptPubkey
  | .bare | .sh | .shSortedMulti =>
    ∃ s, descriptor.explicitScript g = .ok s ∧ psbtInput.redeemScript = some s
  | .wsh | .shWsh | .shWshSortedMulti | .wshSortedMulti =>
    ∃ s, descriptor.explicitScript g = .ok s ∧ psbtInput.witnessScript = some s

/-- Each arm of the fallback: an option that is there is unwrapped, and its value compared. -/
theorem unwrap_compare_spec {α : Type} (o : Option α) (p : α → Prop) [DecidablePred p]
    (x : DerivedDescriptor) :
    ∃ r, (if o.isSome then (do let a ← unwrap o; pure (if p a then some x else none))
        else pure none : Except Panic (Option DerivedDescriptor)) = .ok r ∧
      ∀ dd, r = some dd ↔ dd = x ∧ ∃ a, o = some a ∧ p a := by
  cases o with
  | none => exact ⟨none, rfl, fun _ => ⟨nofun, fun ⟨_, _, h, _⟩ => nomatch h⟩⟩
  | some a =>
    refine ⟨_, rfl, fun dd => ?_⟩
    by_cases h : p a <;>
      simp only [h, ↓reduceIte, reduceCtorEq, Option.some.injEq, eq_comm, exists_eq_left', and_true,
        and_false]

/-- **The fallback never panics, and answers the descriptor it is given exactly when the scripts
of its type match.** It unwraps an option only after checking it is there, and asks for an
explicit script only of a descriptor type that has one. -/
theorem fixedIndexMatch_spec (g : Grammar) (descriptor : DerivedDescriptor) (psbtInput : Input)
    (utxo : Option TxOut) :
    ∃ r, fixedIndexMatch g descriptor psbtInput utxo = .ok r ∧
      ∀ dd, r = some dd ↔ dd = descriptor ∧ ScriptMatches g descriptor psbtInput utxo := by
  unfold fixedIndexMatch
  split <;> rename_i hty <;> simp only [ScriptMatches, hty]
  all_goals first
    | exact unwrap_compare_spec _ _ _
    | obtain ⟨s, hs⟩ := descriptor.explicitScript_ok g (by simp [hty])
      simp only [hs, unwrapOk, expect_ok, Except.ok_bind]
      refine (unwrap_compare_spec _ (s = ·) descriptor).imp fun r ⟨hr, h⟩ => ⟨hr, ?_⟩
      simpa only [Except.ok.injEq, exists_eq_left', exists_eq_right'] using h

/-- What backs a descriptor `dd` found for `d` from an input: `dd` is `d` at a normal index,
and either an entry of the input's BIP32 or taproot key origins backs an extended key of `d` at
that index, or `d` has no wildcard, the index is 0 and the scripts of `dd`'s type match the
input. -/
def BackedByInput (g : Grammar) (d : ExtendedDescriptor) (psbtInput : Input)
    (utxo : Option TxOut) (dd : DerivedDescriptor) : Prop :=
  ∃ i < 2 ^ 31, d.atDerivationIndex i = .ok dd ∧
    ((∃ x, .xPub x ∈ d.keys ∧
        ((∃ e ∈ psbtInput.bip32Derivation.entries, Backs secp x i (hdKeyOrigin e)) ∨
          ∃ e ∈ psbtInput.tapKeyOrigins.entries, Backs secp x i (tapKeyOrigin e))) ∨
      d.hasWildcard = false ∧ i = 0 ∧ ScriptMatches g dd psbtInput utxo)

/-- **Soundness of `derive_from_psbt_input`.** For a descriptor the wallet's check accepts,
every descriptor found for an input is backed by the input. -/
theorem deriveFromPsbtInput_sound (g : Grammar) (d : ExtendedDescriptor) (psbtInput : Input)
    (utxo : Option TxOut) (dd : DerivedDescriptor) (hd : checkWalletDescriptor g d = .ok ())
    (h : deriveFromPsbtInput secp g d psbtInput utxo = .ok (some dd)) :
    BackedByInput secp g d psbtInput utxo dd := by
  obtain ⟨_ | dd', hhd, h⟩ := Except.bind_eq_ok.mp h
  swap
  · cases h
    obtain ⟨i, hi, hdd, x, hx, he⟩ := deriveFromPsbtKeyOrigins_sound secp hd hhd
    exact ⟨i, hi, hdd, .inl ⟨x, hx, .inl he⟩⟩
  obtain ⟨_ | dd', htap, h⟩ := Except.bind_eq_ok.mp h
  swap
  · cases h
    obtain ⟨i, hi, hdd, x, hx, he⟩ := deriveFromPsbtKeyOrigins_sound secp hd htap
    exact ⟨i, hi, hdd, .inl ⟨x, hx, .inr he⟩⟩
  split_ifs at h with hw
  · cases h
  obtain ⟨dd₀, h₀, h⟩ := Except.bind_eq_ok.mp h
  obtain ⟨r, hr, hspec⟩ := fixedIndexMatch_spec g dd₀ psbtInput utxo
  obtain ⟨rfl, hs⟩ := (hspec dd).mp (Except.ok.inj (hr.symm.trans h))
  exact ⟨0, by norm_num, expect_eq_ok.mp h₀, .inr ⟨by simpa using hw, rfl, hs⟩⟩

theorem deriveFromPsbtInput_sound_wpkh :
    checkWalletDescriptor Grammar.sample
        (.wpkh (.xPub ⟨none, ⟨.main, ⟨2⟩, ⟨3⟩⟩, [.normal 0], .unhardened⟩)) = .ok () ∧
      deriveFromPsbtInput SecpCtx.sample Grammar.sample
          (.wpkh (.xPub ⟨none, ⟨.main, ⟨2⟩, ⟨3⟩⟩, [.normal 0], .unhardened⟩))
          ⟨⟨[(⟨(2 * 2 ^ 32 + 1) * 2 ^ 32 + 4⟩, (⟨2⟩, [.normal 0, .normal 3]))],
            List.nodup_singleton _⟩, ⟨[], List.nodup_nil⟩, none, none⟩ none =
        .ok (some (.wpkh ⟨.xPub ⟨none, ⟨.main, ⟨2⟩, ⟨3⟩⟩, [.normal 0, .normal 3], .none⟩,
          rfl, rfl⟩)) ∧
      BackedByInput SecpCtx.sample Grammar.sample
        (.wpkh (.xPub ⟨none, ⟨.main, ⟨2⟩, ⟨3⟩⟩, [.normal 0], .unhardened⟩))
        ⟨⟨[(⟨(2 * 2 ^ 32 + 1) * 2 ^ 32 + 4⟩, (⟨2⟩, [.normal 0, .normal 3]))],
          List.nodup_singleton _⟩, ⟨[], List.nodup_nil⟩, none, none⟩ none
        (.wpkh ⟨.xPub ⟨none, ⟨.main, ⟨2⟩, ⟨3⟩⟩, [.normal 0, .normal 3], .none⟩, rfl, rfl⟩) :=
  ⟨rfl, rfl, deriveFromPsbtInput_sound SecpCtx.sample _ _ _ _ _ (by rfl) (by rfl)⟩

/-! ## The script fallback -/

/-- **The script fallback, in full.** For an accepted descriptor without wildcard on which neither
kind of key origin finds anything, `derive_from_psbt_input` does not panic, and it answers the
descriptor at index 0 exactly when the scripts of that descriptor's type match the input. -/
theorem deriveFromPsbtInput_fallback (g : Grammar) (d : ExtendedDescriptor) (psbtInput : Input)
    (utxo : Option TxOut) (hd : checkWalletDescriptor g d = .ok ()) (hw : d.hasWildcard = false)
    (hhd : deriveFromHdKeypaths secp d psbtInput.bip32Derivation = .ok none)
    (htap : deriveFromTapKeyOrigins secp d psbtInput.tapKeyOrigins = .ok none) :
    ∃ dd₀, d.atDerivationIndex 0 = .ok dd₀ ∧
      ∃ r, deriveFromPsbtInput secp g d psbtInput utxo = .ok r ∧
        ∀ dd, r = some dd ↔ dd = dd₀ ∧ ScriptMatches g dd₀ psbtInput utxo := by
  obtain ⟨dd₀, h₀⟩ := checkWalletDescriptor_atDerivationIndex_isOk hd (by norm_num : 0 < 2 ^ 31)
  obtain ⟨r, hr, hspec⟩ := fixedIndexMatch_spec g dd₀ psbtInput utxo
  refine ⟨dd₀, h₀, r, ?_, hspec⟩
  simp only [deriveFromPsbtInput, hhd, htap, hw, h₀, Except.ok_bind, expect_ok]
  exact hr

theorem deriveFromPsbtInput_fallback_wpkh :
    checkWalletDescriptor Grammar.sample
        (.wpkh (.xPub ⟨some (⟨7⟩, []), ⟨.main, ⟨2⟩, ⟨3⟩⟩, [.normal 0], .none⟩)) = .ok () ∧
      Descriptor.hasWildcard
        (.wpkh (.xPub ⟨some (⟨7⟩, []), ⟨.main, ⟨2⟩, ⟨3⟩⟩, [.normal 0], .none⟩)) = false ∧
      deriveFromHdKeypaths SecpCtx.sample
        (.wpkh (.xPub ⟨some (⟨7⟩, []), ⟨.main, ⟨2⟩, ⟨3⟩⟩, [.normal 0], .none⟩))
        ⟨[], List.nodup_nil⟩ = .ok none ∧
      deriveFromTapKeyOrigins SecpCtx.sample
        (.wpkh (.xPub ⟨some (⟨7⟩, []), ⟨.main, ⟨2⟩, ⟨3⟩⟩, [.normal 0], .none⟩))
        ⟨[], List.nodup_nil⟩ = .ok none ∧
      ∃ dd₀, Descriptor.atDerivationIndex
          (.wpkh (.xPub ⟨some (⟨7⟩, []), ⟨.main, ⟨2⟩, ⟨3⟩⟩, [.normal 0], .none⟩)) 0 = .ok dd₀ ∧
        ∃ r, deriveFromPsbtInput SecpCtx.sample Grammar.sample
            (.wpkh (.xPub ⟨some (⟨7⟩, []), ⟨.main, ⟨2⟩, ⟨3⟩⟩, [.normal 0], .none⟩))
            ⟨⟨[], List.nodup_nil⟩, ⟨[], List.nodup_nil⟩, none, none⟩ (some ⟨⟨[]⟩⟩) = .ok r ∧
          ∀ dd, r = some dd ↔ dd = dd₀ ∧ ScriptMatches Grammar.sample dd₀
            ⟨⟨[], List.nodup_nil⟩, ⟨[], List.nodup_nil⟩, none, none⟩ (some ⟨⟨[]⟩⟩) :=
  ⟨rfl, rfl, rfl, rfl, deriveFromPsbtInput_fallback SecpCtx.sample Grammar.sample _
    ⟨⟨[], List.nodup_nil⟩, ⟨[], List.nodup_nil⟩, none, none⟩ (some ⟨⟨[]⟩⟩) (by rfl) (by rfl)
    (by rfl) (by rfl)⟩

/-! ## What the matcher finds -/

/-- Whatever `derive_from_psbt_input` finds is the descriptor at some index. -/
theorem deriveFromPsbtInput_eq_ok_some {g : Grammar} {d : ExtendedDescriptor} {psbtInput : Input}
    {utxo : Option TxOut} {dd : DerivedDescriptor}
    (h : deriveFromPsbtInput secp g d psbtInput utxo = .ok (some dd)) :
    ∃ i, d.atDerivationIndex i = .ok dd := by
  obtain ⟨_ | dd', hhd, h⟩ := Except.bind_eq_ok.mp h
  swap
  · cases h
    obtain ⟨-, -, i, -, hdd⟩ := deriveFromPsbtKeyOrigins_eq_ok_some secp hhd
    exact ⟨i, hdd⟩
  obtain ⟨_ | dd', htap, h⟩ := Except.bind_eq_ok.mp h
  swap
  · cases h
    obtain ⟨-, -, i, -, hdd⟩ := deriveFromPsbtKeyOrigins_eq_ok_some secp htap
    exact ⟨i, hdd⟩
  split_ifs at h
  · cases h
  obtain ⟨dd₀, h₀, h⟩ := Except.bind_eq_ok.mp h
  obtain ⟨r, hr, hspec⟩ := fixedIndexMatch_spec g dd₀ psbtInput utxo
  obtain ⟨rfl, -⟩ := (hspec dd).mp (Except.ok.inj (hr.symm.trans h))
  exact ⟨0, expect_eq_ok.mp h₀⟩

/-- **`derive_from_psbt_input` keeps the type of the descriptor.** Whatever it finds for an input,
from key origins or from scripts, has the wallet descriptor's type: it is a witness descriptor,
or a taproot one, exactly when the wallet descriptor is. -/
theorem deriveFromPsbtInput_descType (g : Grammar) (d : ExtendedDescriptor) (psbtInput : Input)
    (utxo : Option TxOut) {dd : DerivedDescriptor}
    (h : deriveFromPsbtInput secp g d psbtInput utxo = .ok (some dd)) :
    dd.descType = d.descType ∧ dd.isWitness = d.isWitness ∧ dd.isTaproot = d.isTaproot := by
  obtain ⟨i, hi⟩ := deriveFromPsbtInput_eq_ok_some secp h
  have ht : dd.descType = d.descType := Descriptor.descType_translatePk hi
  exact ⟨ht, by simp only [Descriptor.isWitness, ht], by simp only [Descriptor.isTaproot, ht]⟩

theorem deriveFromPsbtInput_descType_wpkh :
    deriveFromPsbtInput SecpCtx.sample Grammar.sample
        (.wpkh (.xPub ⟨none, ⟨.main, ⟨2⟩, ⟨3⟩⟩, [.normal 0], .unhardened⟩))
        ⟨⟨[(⟨(2 * 2 ^ 32 + 1) * 2 ^ 32 + 4⟩, (⟨2⟩, [.normal 0, .normal 3]))],
          List.nodup_singleton _⟩, ⟨[], List.nodup_nil⟩, none, none⟩ none =
      .ok (some (.wpkh ⟨.xPub ⟨none, ⟨.main, ⟨2⟩, ⟨3⟩⟩, [.normal 0, .normal 3], .none⟩,
        rfl, rfl⟩)) ∧
    Descriptor.descType (.wpkh ⟨.xPub ⟨none, ⟨.main, ⟨2⟩, ⟨3⟩⟩, [.normal 0, .normal 3], .none⟩,
        rfl, rfl⟩ : DerivedDescriptor) =
      Descriptor.descType (.wpkh (.xPub ⟨none, ⟨.main, ⟨2⟩, ⟨3⟩⟩, [.normal 0], .unhardened⟩) :
        ExtendedDescriptor) ∧
    Descriptor.isWitness (.wpkh ⟨.xPub ⟨none, ⟨.main, ⟨2⟩, ⟨3⟩⟩, [.normal 0, .normal 3], .none⟩,
        rfl, rfl⟩ : DerivedDescriptor) =
      Descriptor.isWitness (.wpkh (.xPub ⟨none, ⟨.main, ⟨2⟩, ⟨3⟩⟩, [.normal 0], .unhardened⟩) :
        ExtendedDescriptor) ∧
    Descriptor.isTaproot (.wpkh ⟨.xPub ⟨none, ⟨.main, ⟨2⟩, ⟨3⟩⟩, [.normal 0, .normal 3], .none⟩,
        rfl, rfl⟩ : DerivedDescriptor) =
      Descriptor.isTaproot (.wpkh (.xPub ⟨none, ⟨.main, ⟨2⟩, ⟨3⟩⟩, [.normal 0], .unhardened⟩) :
        ExtendedDescriptor) := by
  have h : deriveFromPsbtInput SecpCtx.sample Grammar.sample
      (.wpkh (.xPub ⟨none, ⟨.main, ⟨2⟩, ⟨3⟩⟩, [.normal 0], .unhardened⟩))
      ⟨⟨[(⟨(2 * 2 ^ 32 + 1) * 2 ^ 32 + 4⟩, (⟨2⟩, [.normal 0, .normal 3]))],
        List.nodup_singleton _⟩, ⟨[], List.nodup_nil⟩, none, none⟩ none =
      .ok (some (.wpkh ⟨.xPub ⟨none, ⟨.main, ⟨2⟩, ⟨3⟩⟩, [.normal 0, .normal 3], .none⟩,
        rfl, rfl⟩)) := rfl
  exact ⟨h, deriveFromPsbtInput_descType SecpCtx.sample _ _ _ _ h⟩

/-- **A descriptor without wildcard is only ever found at index 0.** It derives to the same
descriptor at every index, so whichever evidence matched, key origins at any index or the
scripts, the answer is the descriptor at index 0. -/
theorem deriveFromPsbtInput_fixed (g : Grammar) (d : ExtendedDescriptor) (psbtInput : Input)
    (utxo : Option TxOut) {dd : DerivedDescriptor} (hw : d.hasWildcard = false)
    (h : deriveFromPsbtInput secp g d psbtInput utxo = .ok (some dd)) :
    d.atDerivationIndex 0 = .ok dd := by
  obtain ⟨i, hi⟩ := deriveFromPsbtInput_eq_ok_some secp h
  rwa [Descriptor.atDerivationIndex_of_hasWildcard hw 0 i]

theorem deriveFromPsbtInput_fixed_pkh :
    Descriptor.hasWildcard (.pkh (.xPub ⟨some (⟨7⟩, []), ⟨.main, ⟨2⟩, ⟨3⟩⟩, [.normal 0], .none⟩))
        = false ∧
      deriveFromPsbtInput SecpCtx.sample Grammar.sample
          (.pkh (.xPub ⟨some (⟨7⟩, []), ⟨.main, ⟨2⟩, ⟨3⟩⟩, [.normal 0], .none⟩))
          ⟨⟨[], List.nodup_nil⟩, ⟨[], List.nodup_nil⟩, none, none⟩ (some ⟨⟨[]⟩⟩) =
        .ok (some (.pkh ⟨.xPub ⟨some (⟨7⟩, []), ⟨.main, ⟨2⟩, ⟨3⟩⟩, [.normal 0], .none⟩,
          rfl, rfl⟩)) ∧
      Descriptor.atDerivationIndex
          (.pkh (.xPub ⟨some (⟨7⟩, []), ⟨.main, ⟨2⟩, ⟨3⟩⟩, [.normal 0], .none⟩)) 0 =
        .ok (.pkh ⟨.xPub ⟨some (⟨7⟩, []), ⟨.main, ⟨2⟩, ⟨3⟩⟩, [.normal 0], .none⟩, rfl, rfl⟩) := by
  have h : deriveFromPsbtInput SecpCtx.sample Grammar.sample
      (.pkh (.xPub ⟨some (⟨7⟩, []), ⟨.main, ⟨2⟩, ⟨3⟩⟩, [.normal 0], .none⟩))
      ⟨⟨[], List.nodup_nil⟩, ⟨[], List.nodup_nil⟩, none, none⟩ (some ⟨⟨[]⟩⟩) =
      .ok (some (.pkh ⟨.xPub ⟨some (⟨7⟩, []), ⟨.main, ⟨2⟩, ⟨3⟩⟩, [.normal 0], .none⟩,
        rfl, rfl⟩)) := rfl
  exact ⟨rfl, h, deriveFromPsbtInput_fixed SecpCtx.sample _ _ _ _ (by rfl) h⟩

/-- **Every descriptor the wallet matches to an input is on the wallet's network.** For a wallet
descriptor from any source that the check accepts, whatever `derive_from_psbt_input` finds for
any input has all its keys on the network the descriptor was made for. -/
theorem deriveFromPsbtInput_validFor (g : Grammar)
    (calcChecksum : String → Except DescriptorError String) (src : WalletDescriptorSource)
    (n : Network) {d : ExtendedDescriptor} {km : KeyMap}
    (h : intoWalletDescriptor g calcChecksum src n = .ok (d, km))
    (hd : checkWalletDescriptor g d = .ok ()) (psbtInput : Input) (utxo : Option TxOut)
    {dd : DerivedDescriptor} (hdd : deriveFromPsbtInput secp g d psbtInput utxo = .ok (some dd)) :
    ∀ k ∈ dd.keys, k.key.ValidFor n := by
  obtain ⟨i, hi⟩ := deriveFromPsbtInput_eq_ok_some secp hdd
  exact Descriptor.validFor_atDerivationIndex hi
    (intoWalletDescriptor_validFor_of_check g calcChecksum src n h hd)

theorem deriveFromPsbtInput_validFor_template :
    intoWalletDescriptor Grammar.sample (fun _ => .ok "")
        (.template (.wpkh (.xPub ⟨none, ⟨.main, ⟨2⟩, ⟨3⟩⟩, [.normal 0], .unhardened⟩), .empty,
          anyNetwork)) .testnet =
      .ok (.wpkh (.xPub ⟨none, ⟨.test, ⟨2⟩, ⟨3⟩⟩, [.normal 0], .unhardened⟩), .empty) ∧
    checkWalletDescriptor Grammar.sample
        (.wpkh (.xPub ⟨none, ⟨.test, ⟨2⟩, ⟨3⟩⟩, [.normal 0], .unhardened⟩)) = .ok () ∧
    deriveFromPsbtInput SecpCtx.sample Grammar.sample
        (.wpkh (.xPub ⟨none, ⟨.test, ⟨2⟩, ⟨3⟩⟩, [.normal 0], .unhardened⟩))
        ⟨⟨[(⟨(2 * 2 ^ 32 + 1) * 2 ^ 32 + 4⟩, (⟨2⟩, [.normal 0, .normal 3]))],
          List.nodup_singleton _⟩, ⟨[], List.nodup_nil⟩, none, none⟩ none =
      .ok (some (.wpkh ⟨.xPub ⟨none, ⟨.test, ⟨2⟩, ⟨3⟩⟩, [.normal 0, .normal 3], .none⟩,
        rfl, rfl⟩)) ∧
    ∀ k ∈ Descriptor.keys (.wpkh ⟨.xPub ⟨none, ⟨.test, ⟨2⟩, ⟨3⟩⟩, [.normal 0, .normal 3], .none⟩,
        rfl, rfl⟩ : DerivedDescriptor), k.key.ValidFor .testnet := by
  have h : intoWalletDescriptor Grammar.sample (fun _ => .ok "")
      (.template (.wpkh (.xPub ⟨none, ⟨.main, ⟨2⟩, ⟨3⟩⟩, [.normal 0], .unhardened⟩), .empty,
        anyNetwork)) .testnet =
      .ok (.wpkh (.xPub ⟨none, ⟨.test, ⟨2⟩, ⟨3⟩⟩, [.normal 0], .unhardened⟩), .empty) := rfl
  have hdd : deriveFromPsbtInput SecpCtx.sample Grammar.sample
      (.wpkh (.xPub ⟨none, ⟨.test, ⟨2⟩, ⟨3⟩⟩, [.normal 0], .unhardened⟩))
      ⟨⟨[(⟨(2 * 2 ^ 32 + 1) * 2 ^ 32 + 4⟩, (⟨2⟩, [.normal 0, .normal 3]))],
        List.nodup_singleton _⟩, ⟨[], List.nodup_nil⟩, none, none⟩ none =
      .ok (some (.wpkh ⟨.xPub ⟨none, ⟨.test, ⟨2⟩, ⟨3⟩⟩, [.normal 0, .normal 3], .none⟩,
        rfl, rfl⟩)) := rfl
  exact ⟨h, rfl, hdd, deriveFromPsbtInput_validFor SecpCtx.sample _ _ _ _ h (by rfl) _ _ hdd⟩

/-! ## Templates and the matcher

A template's descriptor and the one it yields on a network differ in the network tags of their
extended keys. The matcher reads fingerprints, paths and public keys, which the tags do not
touch, and scripts, which are compiled without them. -/

/-- A definite key retagged to the network as the template's translator retags a key. -/
def DefiniteDescriptorKey.fixNetwork (network : Network) (dk : DefiniteDescriptorKey) :
    DefiniteDescriptorKey :=
  ⟨BdkWallet.fixNetwork network dk.key, by obtain ⟨k, hk⟩ := dk; cases k <;> exact hk⟩

@[simp] theorem DescriptorPublicKey.hasWildcard_fixNetwork (n : Network) (k : DescriptorPublicKey) :
    (fixNetwork n k).hasWildcard = k.hasWildcard := by
  cases k <;> rfl

theorem DescriptorPublicKey.atDerivationIndex_fixNetwork (n : Network) (k : DescriptorPublicKey)
    (i : Nat) : (fixNetwork n k).atDerivationIndex i =
      DefiniteDescriptorKey.fixNetwork n <$> k.atDerivationIndex i := by
  cases k with
  | xPub x =>
    show (x.pathAt i).map _ = DefiniteDescriptorKey.fixNetwork n <$> (x.pathAt i).map _
    cases x.pathAt i <;> rfl
  | _ => rfl

/-- Derivation at an index commutes with retagging. -/
theorem Descriptor.atDerivationIndex_fixNetwork (d : ExtendedDescriptor) (n : Network) (i : Nat) :
    (d.map (fixNetwork n)).atDerivationIndex i =
      Descriptor.map (DefiniteDescriptorKey.fixNetwork n) <$> d.atDerivationIndex i :=
  d.translatePk_map fun k _ => DescriptorPublicKey.atDerivationIndex_fixNetwork n k i

/-- `verify_key` does not read the network tag of the key. -/
theorem verifyKey_fixNetwork (x : DescriptorXKey Xpub) (nk : NetworkKind) (path : DerivationPath)
    (expected : SinglePubKey) :
    verifyKey secp { x with xkey := { x.xkey with network := nk } } path expected =
      verifyKey secp x path expected := by
  simp only [verifyKey, Xpub.derivePub_network]
  cases x.xkey.derivePub secp path <;> rfl

/-- The closure does not read the network tag of the key. -/
theorem matchKey_fixNetwork (K : KeyOrigins) (n : Network) (k : DescriptorPublicKey) :
    matchKey secp K (fixNetwork n k) = matchKey secp K k := by
  cases k with
  | xPub x =>
    simp only [fixNetwork, matchKey, derivePathOf, verifyKey_fixNetwork]
    rfl
  | _ => rfl

/-- The key-origin search on a retagged descriptor finds the retagged descriptor. -/
theorem deriveFromPsbtKeyOrigins_fixNetwork (d : ExtendedDescriptor) (K : KeyOrigins)
    (n : Network) :
    deriveFromPsbtKeyOrigins secp (d.map (fixNetwork n)) K =
      Option.map (Descriptor.map (DefiniteDescriptorKey.fixNetwork n)) <$>
        deriveFromPsbtKeyOrigins secp d K := by
  have hs : (d.map (fixNetwork n)).keys.findSomeM? (matchKey secp K) =
      d.keys.findSomeM? (matchKey secp K) := by
    rw [Descriptor.keys_map, List.findSomeM_map]
    exact List.findSomeM_congr fun k _ => matchKey_fixNetwork secp K n k
  unfold deriveFromPsbtKeyOrigins
  rw [hs]
  rcases d.keys.findSomeM? (matchKey secp K) with e | _ | i
  · rfl
  · rfl
  · simp only [Except.ok_bind, Descriptor.atDerivationIndex_fixNetwork, expect_map]
    cases expect (d.atDerivationIndex i) "We ignore hardened wildcards" <;> rfl

/-- Script compilation reads no network tag: a derived descriptor retagged to any network
compiles to the scripts it compiled to before. -/
def Grammar.NetworkBlind (g : Grammar) : Prop :=
  ∀ (n : Network) (dd : DerivedDescriptor),
    g.scriptPubkey (dd.map (DefiniteDescriptorKey.fixNetwork n)) = g.scriptPubkey dd ∧
      g.innerScript (dd.map (DefiniteDescriptorKey.fixNetwork n)) = g.innerScript dd

theorem Descriptor.explicitScript_fixNetwork {g : Grammar} (hg : g.NetworkBlind) (n : Network)
    (dd : DerivedDescriptor) :
    (dd.map (DefiniteDescriptorKey.fixNetwork n)).explicitScript g = dd.explicitScript g := by
  cases dd with
  | tr => rfl
  | sh => exact congrArg Except.ok (hg n _).2
  | wsh => exact congrArg Except.ok (hg n _).2
  | _ => exact congrArg Except.ok (hg n _).1

/-- An arm of the fallback commutes with a map of the descriptor it answers. -/
theorem unwrap_compare_map {α : Type} (o : Option α) (p : α → Prop) [DecidablePred p]
    (x : DerivedDescriptor) (F : DerivedDescriptor → DerivedDescriptor) :
    (if o.isSome then (do let a ← unwrap o; pure (if p a then some (F x) else none))
        else pure none : Except Panic (Option DerivedDescriptor)) =
      Option.map F <$> (if o.isSome then (do let a ← unwrap o; pure (if p a then some x else none))
        else pure none) := by
  cases o with
  | none => rfl
  | some a =>
    by_cases h : p a <;>
      simp only [Option.isSome_some, if_true, unwrap, Except.ok_bind, h, if_false] <;> rfl

/-- The fallback on a retagged descriptor answers the retagged descriptor. -/
theorem fixedIndexMatch_fixNetwork {g : Grammar} (hg : g.NetworkBlind) (n : Network)
    (dd : DerivedDescriptor) (psbtInput : Input) (utxo : Option TxOut) :
    fixedIndexMatch g (dd.map (DefiniteDescriptorKey.fixNetwork n)) psbtInput utxo =
      Option.map (Descriptor.map (DefiniteDescriptorKey.fixNetwork n)) <$>
        fixedIndexMatch g dd psbtInput utxo := by
  unfold fixedIndexMatch
  rw [Descriptor.descType_map, Descriptor.explicitScript_fixNetwork hg, (hg n dd).1]
  split <;> rename_i hty
  all_goals first
    | exact unwrap_compare_map _ _ _ _
    | obtain ⟨s, hs⟩ := dd.explicitScript_ok g (by simp [hty])
      simp only [hs, unwrapOk, expect_ok, Except.ok_bind]
      exact unwrap_compare_map _ _ _ _

/-- `derive_from_psbt_input` on a retagged descriptor finds the retagged descriptor. -/
theorem deriveFromPsbtInput_fixNetwork {g : Grammar} (hg : g.NetworkBlind) (d : ExtendedDescriptor)
    (psbtInput : Input) (utxo : Option TxOut) (n : Network) :
    deriveFromPsbtInput secp g (d.map (fixNetwork n)) psbtInput utxo =
      Option.map (Descriptor.map (DefiniteDescriptorKey.fixNetwork n)) <$>
        deriveFromPsbtInput secp g d psbtInput utxo := by
  have hw : (d.map (fixNetwork n)).hasWildcard = d.hasWildcard := by
    simp only [Descriptor.hasWildcard, Descriptor.forAnyKey, Descriptor.keys_map, List.any_map,
      Function.comp_def, DescriptorPublicKey.hasWildcard_fixNetwork]
  simp only [deriveFromPsbtInput, deriveFromHdKeypaths, deriveFromTapKeyOrigins,
    deriveFromPsbtKeyOrigins_fixNetwork, hw, Descriptor.atDerivationIndex_fixNetwork, expect_map]
  rcases deriveFromPsbtKeyOrigins secp d
    (BTreeMap.collect (psbtInput.bip32Derivation.entries.map hdKeyOrigin)) with _ | _ | _
  · rfl
  swap
  · rfl
  rcases deriveFromPsbtKeyOrigins secp d
    (BTreeMap.collect (psbtInput.tapKeyOrigins.entries.map tapKeyOrigin)) with _ | _ | _
  · rfl
  swap
  · rfl
  cases d.hasWildcard
  · cases expect (d.atDerivationIndex 0) "0 is not hardened" with
    | error e => rfl
    | ok dd₀ => exact fixedIndexMatch_fixNetwork hg n dd₀ psbtInput utxo
  · rfl

/-- **A template's retagging changes no PSBT match.** For every input, the descriptor a template
yields on a network finds what the template's own descriptor finds, retagged: the same
derived descriptor, or nothing, or the same panic. -/
theorem deriveFromPsbtInput_template {g : Grammar} (hg : g.NetworkBlind)
    {d d' : ExtendedDescriptor} {km km' : KeyMap} {nets : ValidNetworks} {n : Network}
    (h : intoWalletDescriptorTemplate (d, km, nets) n = .ok (d', km'))
    (psbtInput : Input) (utxo : Option TxOut) :
    deriveFromPsbtInput secp g d' psbtInput utxo =
      Option.map (Descriptor.map (DefiniteDescriptorKey.fixNetwork n)) <$>
        deriveFromPsbtInput secp g d psbtInput utxo := by
  rw [intoWalletDescriptorTemplate_eq] at h
  split at h
  · cases h
    exact deriveFromPsbtInput_fixNetwork secp hg d psbtInput utxo n
  · cases h

theorem deriveFromPsbtInput_template_testnet :
    Grammar.sample.NetworkBlind ∧
      intoWalletDescriptorTemplate
          (.wpkh (.xPub ⟨none, ⟨.main, ⟨2⟩, ⟨3⟩⟩, [.normal 0], .unhardened⟩), .empty, anyNetwork)
          .testnet =
        .ok (.wpkh (.xPub ⟨none, ⟨.test, ⟨2⟩, ⟨3⟩⟩, [.normal 0], .unhardened⟩), .empty) ∧
      deriveFromPsbtInput SecpCtx.sample Grammar.sample
          (.wpkh (.xPub ⟨none, ⟨.test, ⟨2⟩, ⟨3⟩⟩, [.normal 0], .unhardened⟩))
          ⟨⟨[(⟨(2 * 2 ^ 32 + 1) * 2 ^ 32 + 4⟩, (⟨2⟩, [.normal 0, .normal 3]))],
            List.nodup_singleton _⟩, ⟨[], List.nodup_nil⟩, none, none⟩ none =
        Option.map (Descriptor.map (DefiniteDescriptorKey.fixNetwork .testnet)) <$>
          deriveFromPsbtInput SecpCtx.sample Grammar.sample
            (.wpkh (.xPub ⟨none, ⟨.main, ⟨2⟩, ⟨3⟩⟩, [.normal 0], .unhardened⟩))
            ⟨⟨[(⟨(2 * 2 ^ 32 + 1) * 2 ^ 32 + 4⟩, (⟨2⟩, [.normal 0, .normal 3]))],
              List.nodup_singleton _⟩, ⟨[], List.nodup_nil⟩, none, none⟩ none := by
  have hg : Grammar.sample.NetworkBlind := fun _ _ => ⟨rfl, rfl⟩
  have h : intoWalletDescriptorTemplate
      (.wpkh (.xPub ⟨none, ⟨.main, ⟨2⟩, ⟨3⟩⟩, [.normal 0], .unhardened⟩), .empty, anyNetwork)
      .testnet = .ok (.wpkh (.xPub ⟨none, ⟨.test, ⟨2⟩, ⟨3⟩⟩, [.normal 0], .unhardened⟩), .empty) :=
    rfl
  exact ⟨hg, h, deriveFromPsbtInput_template SecpCtx.sample hg h _ _⟩

/-! ## Panics

The matcher panics only in `verify_key`, on an evidence path whose last step is hardened. -/

/-- An index the closure accepts for a key of an accepted descriptor is one the descriptor
derives at. -/
theorem atDerivationIndex_of_matchKey {g : Grammar} {d : ExtendedDescriptor}
    (hd : checkWalletDescriptor g d = .ok ()) {K : KeyOrigins} {k : DescriptorPublicKey}
    (hk : k ∈ d.keys) {i : Nat} (hki : matchKey secp K k = .ok (some i)) :
    ∃ dd, d.atDerivationIndex i = .ok dd := by
  cases k with
  | xPub x =>
    obtain ⟨e, -, hb⟩ := backs_of_matchKey secp (wildcard_ne_hardened_of_check hd hk) hki
    exact checkWalletDescriptor_atDerivationIndex_isOk hd hb.index_lt
  | _ => cases hki

/-- Evidence collected out of entries whose paths all end in a normal step has only such paths. -/
theorem getLast_normal_of_collect {γ : Type} {es : List γ}
    {toKeyOrigin : γ → Fingerprint × DerivationPath × SinglePubKey}
    (hes : ∀ e ∈ es, ∀ c ∈ (toKeyOrigin e).2.1.getLast?, c.isHardened = false) :
    ∀ e ∈ (BTreeMap.collect (es.map toKeyOrigin)).entries,
      ∀ c ∈ e.2.1.getLast?, c.isHardened = false := fun e he => by
  obtain ⟨e', he', rfl⟩ := List.mem_map.mp (BTreeMap.mem_collect he)
  exact hes e' he'

/-- The search over the keys of an accepted descriptor does not panic on evidence whose paths all
end in a normal step. -/
theorem deriveFromPsbtKeyOrigins_isOk {g : Grammar} {d : ExtendedDescriptor}
    (hd : checkWalletDescriptor g d = .ok ()) {K : KeyOrigins}
    (hK : ∀ e ∈ K.entries, ∀ c ∈ e.2.1.getLast?, c.isHardened = false) :
    ∃ r, deriveFromPsbtKeyOrigins secp d K = .ok r := by
  obtain ⟨r, hr⟩ := List.findSomeM_isOk fun k hk =>
    matchKey_isOk secp (checkWalletDescriptor_keys hd hk).1 hK
  unfold deriveFromPsbtKeyOrigins
  rw [hr, Except.ok_bind]
  cases r with
  | none => exact ⟨none, rfl⟩
  | some i =>
    obtain ⟨k, hk, hki⟩ := List.exists_of_findSomeM_eq_ok_some hr
    obtain ⟨dd, hdd⟩ := atDerivationIndex_of_matchKey secp hd hk hki
    exact ⟨some dd, by simp [hdd]⟩

/-- **`derive_from_psbt_input` panics only on a hardened last step.** For a descriptor the
wallet's check accepts, and an input whose BIP32 and taproot key-origin paths all end in a
normal step, the matcher returns an answer. -/
theorem deriveFromPsbtInput_isOk (g : Grammar) (d : ExtendedDescriptor) (psbtInput : Input)
    (utxo : Option TxOut) (hd : checkWalletDescriptor g d = .ok ())
    (hbip32 : ∀ e ∈ psbtInput.bip32Derivation.entries, ∀ c ∈ e.2.2.getLast?,
      c.isHardened = false)
    (htap : ∀ e ∈ psbtInput.tapKeyOrigins.entries, ∀ c ∈ e.2.2.2.getLast?,
      c.isHardened = false) :
    ∃ r, deriveFromPsbtInput secp g d psbtInput utxo = .ok r := by
  obtain ⟨r₁, h₁⟩ := deriveFromPsbtKeyOrigins_isOk secp hd
    (@getLast_normal_of_collect _ _ hdKeyOrigin hbip32)
  obtain ⟨r₂, h₂⟩ := deriveFromPsbtKeyOrigins_isOk secp hd
    (@getLast_normal_of_collect _ _ tapKeyOrigin htap)
  obtain ⟨dd₀, h₀⟩ := checkWalletDescriptor_atDerivationIndex_isOk hd (by norm_num : 0 < 2 ^ 31)
  obtain ⟨r₃, h₃, -⟩ := fixedIndexMatch_spec g dd₀ psbtInput utxo
  simp only [deriveFromPsbtInput, deriveFromHdKeypaths, deriveFromTapKeyOrigins, h₁, h₂,
    Except.ok_bind]
  rcases r₁ with _ | _
  · rcases r₂ with _ | _
    · dsimp only
      split_ifs
      · exact ⟨none, rfl⟩
      · exact ⟨r₃, by simp [h₀, h₃]⟩
    · exact ⟨_, rfl⟩
  · exact ⟨_, rfl⟩

theorem deriveFromPsbtInput_isOk_wpkh :
    checkWalletDescriptor Grammar.sample
        (.wpkh (.xPub ⟨some (⟨7⟩, []), ⟨.main, ⟨2⟩, ⟨3⟩⟩, [.normal 0], .unhardened⟩)) = .ok () ∧
      (∀ e ∈ (⟨[(⟨6⟩, (⟨7⟩, [.normal 0, .normal 5]))], List.nodup_singleton _⟩ :
          HdKeyPaths).entries, ∀ c ∈ e.2.2.getLast?, c.isHardened = false) ∧
      (∀ e ∈ (⟨[], List.nodup_nil⟩ : TapKeyOrigins).entries, ∀ c ∈ e.2.2.2.getLast?,
        c.isHardened = false) ∧
      ∃ r, deriveFromPsbtInput SecpCtx.sample Grammar.sample
          (.wpkh (.xPub ⟨some (⟨7⟩, []), ⟨.main, ⟨2⟩, ⟨3⟩⟩, [.normal 0], .unhardened⟩))
          ⟨⟨[(⟨6⟩, (⟨7⟩, [.normal 0, .normal 5]))], List.nodup_singleton _⟩,
            ⟨[], List.nodup_nil⟩, none, none⟩ none = .ok r := by
  have hbip32 : ∀ e ∈ (⟨[(⟨6⟩, (⟨7⟩, [.normal 0, .normal 5]))], List.nodup_singleton _⟩ :
      HdKeyPaths).entries, ∀ c ∈ e.2.2.getLast?, c.isHardened = false := by
    intro e he c hc
    cases List.mem_singleton.mp he
    cases hc
    rfl
  have htap : ∀ e ∈ (⟨[], List.nodup_nil⟩ : TapKeyOrigins).entries, ∀ c ∈ e.2.2.2.getLast?,
      c.isHardened = false := fun _ h => nomatch h
  exact ⟨rfl, hbip32, htap,
    deriveFromPsbtInput_isOk SecpCtx.sample Grammar.sample _ _ none (by rfl) hbip32 htap⟩

/-- The search over the keys of an accepted descriptor panics only in `verify_key`: the index it
accepts is one the descriptor derives at, so the `expect` after the search is never reached. -/
theorem deriveFromPsbtKeyOrigins_eq_error {g : Grammar} {d : ExtendedDescriptor}
    (hd : checkWalletDescriptor g d = .ok ()) {K : KeyOrigins} {p : Panic}
    (h : deriveFromPsbtKeyOrigins secp d K = .error p) :
    p = ⟨"The path should never contain hardened derivation steps"⟩ := by
  rcases Except.bind_eq_error.mp h with hf | ⟨_ | i, hf, h⟩
  · obtain ⟨k, -, hk⟩ := List.findSomeM_eq_error hf
    exact matchKey_eq_error secp hk
  · cases h
  · obtain ⟨k, hk, hki⟩ := List.exists_of_findSomeM_eq_ok_some hf
    obtain ⟨dd, hdd⟩ := atDerivationIndex_of_matchKey secp hd hk hki
    have h : some <$> expect (d.atDerivationIndex i) "We ignore hardened wildcards" = .error p := h
    rw [hdd] at h
    cases h

/-- **On an accepted descriptor, the only panic of `derive_from_psbt_input` is `verify_key`'s.**
The `expect`s on `at_derivation_index` and the `unwrap`s of the script fallback are never
reached: what can panic is public derivation along an evidence path with a hardened step. -/
theorem deriveFromPsbtInput_panic (g : Grammar) (d : ExtendedDescriptor) (psbtInput : Input)
    (utxo : Option TxOut) (hd : checkWalletDescriptor g d = .ok ()) {p : Panic}
    (h : deriveFromPsbtInput secp g d psbtInput utxo = .error p) :
    p = ⟨"The path should never contain hardened derivation steps"⟩ := by
  rcases Except.bind_eq_error.mp h with hhd | ⟨_ | dd, -, h⟩
  · exact deriveFromPsbtKeyOrigins_eq_error secp hd hhd
  swap
  · cases h
  rcases Except.bind_eq_error.mp h with htap | ⟨_ | dd, -, h⟩
  · exact deriveFromPsbtKeyOrigins_eq_error secp hd htap
  swap
  · cases h
  split_ifs at h
  · cases h
  obtain ⟨dd₀, h₀⟩ := checkWalletDescriptor_atDerivationIndex_isOk hd (by norm_num : 0 < 2 ^ 31)
  obtain ⟨r, hr, -⟩ := fixedIndexMatch_spec g dd₀ psbtInput utxo
  rw [h₀] at h
  have h : fixedIndexMatch g dd₀ psbtInput utxo = .error p := h
  rw [hr] at h
  cases h

theorem deriveFromPsbtInput_panic_hardened :
    checkWalletDescriptor Grammar.sample
        (.wpkh (.xPub ⟨some (⟨7⟩, []), ⟨.main, ⟨2⟩, ⟨3⟩⟩, [.normal 0], .unhardened⟩)) = .ok () ∧
      deriveFromPsbtInput SecpCtx.sample Grammar.sample
          (.wpkh (.xPub ⟨some (⟨7⟩, []), ⟨.main, ⟨2⟩, ⟨3⟩⟩, [.normal 0], .unhardened⟩))
          ⟨⟨[(⟨5⟩, (⟨7⟩, [.normal 0, .hardened 0]))], List.nodup_singleton _⟩,
            ⟨[], List.nodup_nil⟩, none, none⟩ none =
        .error ⟨"The path should never contain hardened derivation steps"⟩ ∧
      (⟨"The path should never contain hardened derivation steps"⟩ : Panic) =
        ⟨"The path should never contain hardened derivation steps"⟩ := by
  have h : deriveFromPsbtInput SecpCtx.sample Grammar.sample
      (.wpkh (.xPub ⟨some (⟨7⟩, []), ⟨.main, ⟨2⟩, ⟨3⟩⟩, [.normal 0], .unhardened⟩))
      ⟨⟨[(⟨5⟩, (⟨7⟩, [.normal 0, .hardened 0]))], List.nodup_singleton _⟩,
        ⟨[], List.nodup_nil⟩, none, none⟩ none =
      .error ⟨"The path should never contain hardened derivation steps"⟩ := rfl
  exact ⟨rfl, h, deriveFromPsbtInput_panic SecpCtx.sample _ _ _ _ (by rfl) h⟩

/-- An evidence path whose last step is hardened, under the root fingerprint of a key with a
wildcard and after that key's path, reaches `verify_key` with the hardened step, and public
derivation fails there: the matcher panics, on an input whose other fields are arbitrary, for
a descriptor that passes the wallet's own checks. -/
theorem deriveFromPsbtInput_hardened_evidence (g : Grammar) (xkey : Xpub)
    (pk : Secp256k1.PublicKey) (tapKeyOrigins : TapKeyOrigins)
    (redeemScript witnessScript : Option ScriptBuf) (utxo : Option TxOut) :
    checkWalletDescriptor g (.wpkh (.xPub ⟨some (⟨7⟩, []), xkey, [.normal 0], .unhardened⟩)) =
        (g.sanityCheck (.wpkh (.xPub ⟨some (⟨7⟩, []), xkey, [.normal 0], .unhardened⟩))).mapError
          .miniscript ∧
      deriveFromHdKeypaths secp (.wpkh (.xPub ⟨some (⟨7⟩, []), xkey, [.normal 0], .unhardened⟩))
          ⟨[(pk, (⟨7⟩, [.normal 0, .hardened 0]))], List.nodup_singleton _⟩ =
        .error ⟨"The path should never contain hardened derivation steps"⟩ ∧
      deriveFromPsbtInput secp g (.wpkh (.xPub ⟨some (⟨7⟩, []), xkey, [.normal 0], .unhardened⟩))
          ⟨⟨[(pk, (⟨7⟩, [.normal 0, .hardened 0]))], List.nodup_singleton _⟩, tapKeyOrigins,
            redeemScript, witnessScript⟩ utxo =
        .error ⟨"The path should never contain hardened derivation steps"⟩ :=
  ⟨rfl, rfl, rfl⟩

/-! ## The search, by the evidence

On evidence whose paths end in normal steps, what the search over an accepted descriptor's keys
answers is fixed by which keys the evidence backs: nothing when it backs none, and otherwise the
descriptor at the index backing the first backed key in key order. -/

/-- On evidence whose paths end in normal steps, the closure rejects a key of an accepted
descriptor, without a panic, exactly when the entry under its root fingerprint backs it at no
index. -/
theorem matchKey_eq_ok_none_iff {g : Grammar} {d : ExtendedDescriptor}
    (hd : checkWalletDescriptor g d = .ok ()) {K : KeyOrigins}
    (hK : ∀ e ∈ K.entries, ∀ c ∈ e.2.1.getLast?, c.isHardened = false)
    {k : DescriptorPublicKey} (hk : k ∈ d.keys) :
    matchKey secp K k = .ok none ↔ ∀ y, k = .xPub y → ∀ j e,
      K.getKeyValue (y.rootFingerprint secp) = some e → ¬ Backs secp y j e := by
  constructor
  · rintro h y rfl j e hget hb
    rw [matchKey_of_backs secp (wildcard_ne_hardened_of_check hd hk) hget hb] at h
    cases h
  · intro h
    obtain ⟨_ | j, hr⟩ := matchKey_isOk secp (checkWalletDescriptor_keys hd hk).1 hK
    · exact hr
    cases k with
    | xPub y =>
      obtain ⟨e, hget, hb⟩ := backs_of_matchKey secp (wildcard_ne_hardened_of_check hd hk) hr
      exact absurd hb (h y rfl j e hget)
    | _ => cases hr

/-- **The key-origin search, by the evidence.** For a descriptor the wallet's check accepts and
evidence whose paths all end in a normal step, the search returns without a panic; it answers
nothing exactly when no extended key of the descriptor is backed by the entry under its root
fingerprint, and it answers `dd` exactly when some extended key `x` is backed at an index `i`,
no extended key before `x` in key order is backed at any index, and `dd` is the descriptor at
`i`. -/
theorem deriveFromPsbtKeyOrigins_first_backed {g : Grammar} {d : ExtendedDescriptor}
    (hd : checkWalletDescriptor g d = .ok ()) {K : KeyOrigins}
    (hK : ∀ e ∈ K.entries, ∀ c ∈ e.2.1.getLast?, c.isHardened = false) :
    ∃ r, deriveFromPsbtKeyOrigins secp d K = .ok r ∧
      (r = none ↔ ∀ x, .xPub x ∈ d.keys → ∀ i e,
        K.getKeyValue (x.rootFingerprint secp) = some e → ¬ Backs secp x i e) ∧
      ∀ dd, r = some dd ↔ ∃ before x after i, d.keys = before ++ .xPub x :: after ∧
        (∀ y, .xPub y ∈ before → ∀ j e,
          K.getKeyValue (y.rootFingerprint secp) = some e → ¬ Backs secp y j e) ∧
        (∃ e, K.getKeyValue (x.rootFingerprint secp) = some e ∧ Backs secp x i e) ∧
        d.atDerivationIndex i = .ok dd := by
  have hnone := @matchKey_eq_ok_none_iff secp g d hd K hK
  obtain ⟨r, hr⟩ := deriveFromPsbtKeyOrigins_isOk secp hd hK
  have hspec := deriveFromPsbtKeyOrigins_spec secp d K
  simp only [hr, Except.ok.injEq] at hspec
  refine ⟨r, hr, ?_, fun dd => ?_⟩
  · rw [hspec.1]
    exact ⟨fun h x hx => (hnone hx).mp (h _ hx) x rfl,
      fun h k hk => (hnone hk).mpr fun y hy => h y (hy ▸ hk)⟩
  · rw [hspec.2 dd]
    constructor
    · rintro ⟨before, _ | x | _, after, i, hkeys, hbefore, hk, hdd⟩
      any_goals cases hk
      have hx : .xPub x ∈ d.keys := hkeys ▸ by simp
      exact ⟨before, x, after, i, hkeys,
        fun y hy => (hnone (hkeys ▸ by simp [hy])).mp (hbefore _ hy) y rfl,
        backs_of_matchKey secp (wildcard_ne_hardened_of_check hd hx) hk, hdd⟩
    · rintro ⟨before, x, after, i, hkeys, hbefore, ⟨e, hget, hb⟩, hdd⟩
      have hx : .xPub x ∈ d.keys := hkeys ▸ by simp
      exact ⟨before, _, after, i, hkeys,
        fun k hk => (hnone (hkeys ▸ by simp [hk])).mpr fun y hy => hbefore y (hy ▸ hk),
        matchKey_of_backs secp (wildcard_ne_hardened_of_check hd hx) hget hb, hdd⟩

theorem deriveFromPsbtKeyOrigins_first_backed_wpkh :
    checkWalletDescriptor Grammar.sample
        (.wpkh (.xPub ⟨some (⟨7⟩, []), ⟨.main, ⟨2⟩, ⟨3⟩⟩, [.normal 0], .unhardened⟩)) = .ok () ∧
      (∀ e ∈ (⟨[(⟨7⟩, ([.normal 0, .normal 5], .fullKey (.new ⟨(2 * 2 ^ 32 + 1) * 2 ^ 32 + 6⟩)))],
          List.nodup_singleton _⟩ : KeyOrigins).entries,
        ∀ c ∈ e.2.1.getLast?, c.isHardened = false) ∧
      ∃ r, deriveFromPsbtKeyOrigins SecpCtx.sample
          (.wpkh (.xPub ⟨some (⟨7⟩, []), ⟨.main, ⟨2⟩, ⟨3⟩⟩, [.normal 0], .unhardened⟩))
          ⟨[(⟨7⟩, ([.normal 0, .normal 5], .fullKey (.new ⟨(2 * 2 ^ 32 + 1) * 2 ^ 32 + 6⟩)))],
            List.nodup_singleton _⟩ = .ok r ∧
        (r = none ↔ ∀ x, .xPub x ∈ Descriptor.keys (.wpkh
            (.xPub ⟨some (⟨7⟩, []), ⟨.main, ⟨2⟩, ⟨3⟩⟩, [.normal 0], .unhardened⟩) :
              ExtendedDescriptor) → ∀ i e,
          BTreeMap.getKeyValue (⟨[(⟨7⟩, ([.normal 0, .normal 5],
              .fullKey (.new ⟨(2 * 2 ^ 32 + 1) * 2 ^ 32 + 6⟩)))], List.nodup_singleton _⟩ :
              KeyOrigins)
            (x.rootFingerprint SecpCtx.sample) = some e → ¬ Backs SecpCtx.sample x i e) ∧
        ∀ dd, r = some dd ↔ ∃ before x after i, Descriptor.keys (.wpkh
            (.xPub ⟨some (⟨7⟩, []), ⟨.main, ⟨2⟩, ⟨3⟩⟩, [.normal 0], .unhardened⟩) :
              ExtendedDescriptor) = before ++ .xPub x :: after ∧
          (∀ y, .xPub y ∈ before → ∀ j e,
            BTreeMap.getKeyValue (⟨[(⟨7⟩, ([.normal 0, .normal 5],
                .fullKey (.new ⟨(2 * 2 ^ 32 + 1) * 2 ^ 32 + 6⟩)))], List.nodup_singleton _⟩ :
                KeyOrigins)
              (y.rootFingerprint SecpCtx.sample) = some e → ¬ Backs SecpCtx.sample y j e) ∧
          (∃ e, BTreeMap.getKeyValue (⟨[(⟨7⟩, ([.normal 0, .normal 5],
                .fullKey (.new ⟨(2 * 2 ^ 32 + 1) * 2 ^ 32 + 6⟩)))], List.nodup_singleton _⟩ :
                KeyOrigins)
              (x.rootFingerprint SecpCtx.sample) = some e ∧ Backs SecpCtx.sample x i e) ∧
          Descriptor.atDerivationIndex
            (.wpkh (.xPub ⟨some (⟨7⟩, []), ⟨.main, ⟨2⟩, ⟨3⟩⟩, [.normal 0], .unhardened⟩)) i =
            .ok dd := by
  have hd : checkWalletDescriptor Grammar.sample
      (.wpkh (.xPub ⟨some (⟨7⟩, []), ⟨.main, ⟨2⟩, ⟨3⟩⟩, [.normal 0], .unhardened⟩)) = .ok () := rfl
  have hK : ∀ e ∈ (⟨[(⟨7⟩, ([.normal 0, .normal 5],
      .fullKey (.new ⟨(2 * 2 ^ 32 + 1) * 2 ^ 32 + 6⟩)))], List.nodup_singleton _⟩ :
      KeyOrigins).entries, ∀ c ∈ e.2.1.getLast?, c.isHardened = false := by
    intro e he c hc
    cases List.mem_singleton.mp he
    cases hc
    rfl
  exact ⟨hd, hK, deriveFromPsbtKeyOrigins_first_backed SecpCtx.sample hd hK⟩

/-! ## Completeness -/

/-- Evidence that identifies the extended key `x` at `index` behind the keys `before` it: an
entry backs `x` at `index` and no entry after it has `x`'s root fingerprint, so collecting the
evidence by fingerprint keeps it; and every key before `x` rejects every entry on its own,
without panicking. -/
structure Identifies (before : List DescriptorPublicKey) (x : DescriptorXKey Xpub) (index : Nat)
    (entries : List (Fingerprint × DerivationPath × SinglePubKey)) : Prop where
  backs : ∃ pre e post, entries = pre ++ e :: post ∧ Backs secp x index e ∧
    ∀ e' ∈ post, e'.1 ≠ x.rootFingerprint secp
  rejected_before : ∀ k ∈ before, ∀ e ∈ entries, matchKey secp (BTreeMap.collect [e]) k = .ok none

/-- **Completeness of the key-origin matcher.** Evidence that identifies an extended key of an
accepted descriptor at an index recovers the descriptor at that index. -/
theorem deriveFromPsbtKeyOrigins_complete {g : Grammar} {d : ExtendedDescriptor}
    (hd : checkWalletDescriptor g d = .ok ()) {before after : List DescriptorPublicKey}
    {x : DescriptorXKey Xpub} (hkeys : d.keys = before ++ .xPub x :: after) {i : Nat}
    {es : List (Fingerprint × DerivationPath × SinglePubKey)}
    (hid : Identifies secp before x i es) :
    ∃ dd, d.atDerivationIndex i = .ok dd ∧
      deriveFromPsbtKeyOrigins secp d (BTreeMap.collect es) = .ok (some dd) := by
  obtain ⟨⟨pre, e, post, rfl, hb, hpost⟩, hbefore⟩ := hid
  have hw := wildcard_ne_hardened_of_check hd (hkeys ▸ by simp : .xPub x ∈ d.keys)
  obtain ⟨dd, hdd⟩ := checkWalletDescriptor_atDerivationIndex_isOk hd hb.index_lt
  have hget : (BTreeMap.collect (pre ++ e :: post)).getKeyValue (x.rootFingerprint secp) =
      some e := by
    rw [← hb.fingerprint_eq]
    exact BTreeMap.getKeyValue_collect_of_last fun e' he' h =>
      hpost e' he' (h.trans hb.fingerprint_eq)
  exact ⟨dd, hdd, deriveFromPsbtKeyOrigins_of_first secp hkeys
    (fun k hk => matchKey_collect_eq_ok_none secp (hbefore k hk))
    (matchKey_of_backs secp hw hget hb) hdd⟩

/-- **Completeness of the matcher on BIP32 key origins.** Take an accepted descriptor, an
extended key `x` of it, the keys `before` it in key order, and an index. BIP32 key origins that
identify `x` at the index behind `before` make `derive_from_hd_keypaths` find the descriptor at
the index, and so `derive_from_psbt_input` on any input with these key origins. Taproot key
origins that identify `x` in x-only form do the same for `derive_from_tap_key_origins`. -/
theorem deriveFromHdKeypaths_complete (g : Grammar) (d : ExtendedDescriptor)
    (hd : checkWalletDescriptor g d = .ok ()) (before after : List DescriptorPublicKey)
    (x : DescriptorXKey Xpub) (hkeys : d.keys = before ++ .xPub x :: after) (i : Nat)
    (hdKeypaths : HdKeyPaths)
    (hid : Identifies secp before x i (hdKeypaths.entries.map hdKeyOrigin)) :
    ∃ dd, d.atDerivationIndex i = .ok dd ∧ deriveFromHdKeypaths secp d hdKeypaths = .ok (some dd) ∧
      (∀ tapKeyOrigins redeemScript witnessScript utxo, deriveFromPsbtInput secp g d
        ⟨hdKeypaths, tapKeyOrigins, redeemScript, witnessScript⟩ utxo = .ok (some dd)) ∧
      ∀ tapKeyOrigins : TapKeyOrigins,
        Identifies secp before x i (tapKeyOrigins.entries.map tapKeyOrigin) →
          deriveFromTapKeyOrigins secp d tapKeyOrigins = .ok (some dd) := by
  obtain ⟨dd, hdd, hhd⟩ := deriveFromPsbtKeyOrigins_complete secp hd hkeys hid
  have hhd : deriveFromHdKeypaths secp d hdKeypaths = .ok (some dd) := hhd
  refine ⟨dd, hdd, hhd, fun _ _ _ _ => ?_, fun t ht => ?_⟩
  · simp only [deriveFromPsbtInput, hhd]
    rfl
  · obtain ⟨dd', hdd', htap⟩ := deriveFromPsbtKeyOrigins_complete secp hd hkeys ht
    rw [hdd, Except.ok.injEq] at hdd'
    exact hdd' ▸ htap

theorem deriveFromHdKeypaths_complete_wsh :
    checkWalletDescriptor Grammar.sample
        (.wsh (.sortedMulti 2
          [.xPub ⟨some (⟨9⟩, []), ⟨.main, ⟨4⟩, ⟨3⟩⟩, [.normal 0], .unhardened⟩,
            .xPub ⟨some (⟨7⟩, []), ⟨.main, ⟨2⟩, ⟨3⟩⟩, [.normal 0], .unhardened⟩])) = .ok () ∧
      Identifies SecpCtx.sample
        [.xPub ⟨some (⟨9⟩, []), ⟨.main, ⟨4⟩, ⟨3⟩⟩, [.normal 0], .unhardened⟩]
        ⟨some (⟨7⟩, []), ⟨.main, ⟨2⟩, ⟨3⟩⟩, [.normal 0], .unhardened⟩ 5
        ((⟨[(⟨1⟩, (⟨7⟩, [.normal 1, .normal 5])),
          (⟨(2 * 2 ^ 32 + 1) * 2 ^ 32 + 6⟩, (⟨7⟩, [.normal 0, .normal 5]))], by decide⟩ :
          HdKeyPaths).entries.map hdKeyOrigin) ∧
      ∃ dd, Descriptor.atDerivationIndex
          (.wsh (.sortedMulti 2
            [.xPub ⟨some (⟨9⟩, []), ⟨.main, ⟨4⟩, ⟨3⟩⟩, [.normal 0], .unhardened⟩,
              .xPub ⟨some (⟨7⟩, []), ⟨.main, ⟨2⟩, ⟨3⟩⟩, [.normal 0], .unhardened⟩])) 5 = .ok dd ∧
        deriveFromHdKeypaths SecpCtx.sample
          (.wsh (.sortedMulti 2
            [.xPub ⟨some (⟨9⟩, []), ⟨.main, ⟨4⟩, ⟨3⟩⟩, [.normal 0], .unhardened⟩,
              .xPub ⟨some (⟨7⟩, []), ⟨.main, ⟨2⟩, ⟨3⟩⟩, [.normal 0], .unhardened⟩]))
          ⟨[(⟨1⟩, (⟨7⟩, [.normal 1, .normal 5])),
            (⟨(2 * 2 ^ 32 + 1) * 2 ^ 32 + 6⟩, (⟨7⟩, [.normal 0, .normal 5]))], by decide⟩ =
          .ok (some dd) ∧
        (∀ tapKeyOrigins redeemScript witnessScript utxo,
          deriveFromPsbtInput SecpCtx.sample Grammar.sample
            (.wsh (.sortedMulti 2
            [.xPub ⟨some (⟨9⟩, []), ⟨.main, ⟨4⟩, ⟨3⟩⟩, [.normal 0], .unhardened⟩,
              .xPub ⟨some (⟨7⟩, []), ⟨.main, ⟨2⟩, ⟨3⟩⟩, [.normal 0], .unhardened⟩]))
            ⟨⟨[(⟨1⟩, (⟨7⟩, [.normal 1, .normal 5])),
              (⟨(2 * 2 ^ 32 + 1) * 2 ^ 32 + 6⟩, (⟨7⟩, [.normal 0, .normal 5]))], by decide⟩,
              tapKeyOrigins, redeemScript, witnessScript⟩ utxo =
            .ok (some dd)) ∧
        ∀ tapKeyOrigins : TapKeyOrigins,
          Identifies SecpCtx.sample
            [.xPub ⟨some (⟨9⟩, []), ⟨.main, ⟨4⟩, ⟨3⟩⟩, [.normal 0], .unhardened⟩]
            ⟨some (⟨7⟩, []), ⟨.main, ⟨2⟩, ⟨3⟩⟩, [.normal 0], .unhardened⟩ 5
            (tapKeyOrigins.entries.map tapKeyOrigin) →
          deriveFromTapKeyOrigins SecpCtx.sample
            (.wsh (.sortedMulti 2
            [.xPub ⟨some (⟨9⟩, []), ⟨.main, ⟨4⟩, ⟨3⟩⟩, [.normal 0], .unhardened⟩,
              .xPub ⟨some (⟨7⟩, []), ⟨.main, ⟨2⟩, ⟨3⟩⟩, [.normal 0], .unhardened⟩]))
            tapKeyOrigins = .ok (some dd) := by
  have hid : Identifies SecpCtx.sample
      [.xPub ⟨some (⟨9⟩, []), ⟨.main, ⟨4⟩, ⟨3⟩⟩, [.normal 0], .unhardened⟩]
      ⟨some (⟨7⟩, []), ⟨.main, ⟨2⟩, ⟨3⟩⟩, [.normal 0], .unhardened⟩ 5
      ((⟨[(⟨1⟩, (⟨7⟩, [.normal 1, .normal 5])),
        (⟨(2 * 2 ^ 32 + 1) * 2 ^ 32 + 6⟩, (⟨7⟩, [.normal 0, .normal 5]))], by decide⟩ :
        HdKeyPaths).entries.map hdKeyOrigin) := by
    refine ⟨⟨[_], _, [], rfl, ⟨nofun, rfl, _, rfl, rfl, _, rfl, rfl⟩, nofun⟩, fun k hk e he => ?_⟩
    obtain rfl := List.mem_singleton.mp hk
    rcases he with _ | ⟨_, _ | ⟨_, ⟨⟩⟩⟩ <;> rfl
  exact ⟨rfl, hid, deriveFromHdKeypaths_complete SecpCtx.sample Grammar.sample _ (by rfl) _ []
    _ (by rfl) 5 _ hid⟩

/-- A BIP32 entry of another path under the same root fingerprint, sorted after the true
entry, replaces it when the evidence is collected by fingerprint. The other entry alone is
rejected by every key of the descriptor, yet the true index is not recovered. -/
theorem deriveFromHdKeypaths_shadowed :
    checkWalletDescriptor Grammar.sample
        (.wpkh (.xPub ⟨some (⟨7⟩, []), ⟨.main, ⟨2⟩, ⟨3⟩⟩, [.normal 0], .unhardened⟩)) = .ok () ∧
      Backs SecpCtx.sample ⟨some (⟨7⟩, []), ⟨.main, ⟨2⟩, ⟨3⟩⟩, [.normal 0], .unhardened⟩ 5
        (hdKeyOrigin (⟨(2 * 2 ^ 32 + 1) * 2 ^ 32 + 6⟩, (⟨7⟩, [.normal 0, .normal 5]))) ∧
      (∀ k ∈ Descriptor.keys
          (.wpkh (.xPub ⟨some (⟨7⟩, []), ⟨.main, ⟨2⟩, ⟨3⟩⟩, [.normal 0], .unhardened⟩)),
        matchKey SecpCtx.sample (BTreeMap.collect
          [hdKeyOrigin (⟨(2 * 2 ^ 32 + 2) * 2 ^ 32 + 6⟩, (⟨7⟩, [.normal 1, .normal 5]))]) k =
          .ok none) ∧
      deriveFromHdKeypaths SecpCtx.sample
          (.wpkh (.xPub ⟨some (⟨7⟩, []), ⟨.main, ⟨2⟩, ⟨3⟩⟩, [.normal 0], .unhardened⟩))
          ⟨[(⟨(2 * 2 ^ 32 + 1) * 2 ^ 32 + 6⟩, (⟨7⟩, [.normal 0, .normal 5])),
            (⟨(2 * 2 ^ 32 + 2) * 2 ^ 32 + 6⟩, (⟨7⟩, [.normal 1, .normal 5]))], by decide⟩ =
        .ok none :=
  ⟨rfl, ⟨nofun, rfl, _, rfl, rfl, _, rfl, rfl⟩, fun _ hk => by rw [List.mem_singleton.mp hk]; rfl,
    rfl⟩

/-! ## The first key fixes the index -/

/-- A fixed key that comes before a key with a wildcard in key order settles the index at 0
for the whole descriptor: honest evidence for both keys, which backs the key with the wildcard
at index 7 only, yields the descriptor at index 0, where that key stands at another child. -/
theorem deriveFromPsbtKeyOrigins_fixed_key_first (g : Grammar) (xa xb : Xpub)
    (ea eb : Fingerprint × DerivationPath × SinglePubKey)
    (ha : Backs secp ⟨some (⟨5⟩, []), xa, [.normal 0], .none⟩ 0 ea)
    (hb : Backs secp ⟨some (⟨6⟩, []), xb, [.normal 0], .unhardened⟩ 7 eb) :
    checkWalletDescriptor g (.wsh (.ms (.multi .multi 2
        [.xPub ⟨some (⟨5⟩, []), xa, [.normal 0], .none⟩,
          .xPub ⟨some (⟨6⟩, []), xb, [.normal 0], .unhardened⟩]))) =
      (g.sanityCheck (.wsh (.ms (.multi .multi 2
        [.xPub ⟨some (⟨5⟩, []), xa, [.normal 0], .none⟩,
          .xPub ⟨some (⟨6⟩, []), xb, [.normal 0], .unhardened⟩])))).mapError .miniscript ∧
    Descriptor.hasWildcard (.wsh (.ms (.multi .multi 2
        [.xPub ⟨some (⟨5⟩, []), xa, [.normal 0], .none⟩,
          .xPub ⟨some (⟨6⟩, []), xb, [.normal 0], .unhardened⟩]))) = true ∧
    (∀ j, Backs secp ⟨some (⟨6⟩, []), xb, [.normal 0], .unhardened⟩ j eb → j = 7) ∧
    ∃ dd₀ dd₇, Descriptor.atDerivationIndex (.wsh (.ms (.multi .multi 2
          [.xPub ⟨some (⟨5⟩, []), xa, [.normal 0], .none⟩,
            .xPub ⟨some (⟨6⟩, []), xb, [.normal 0], .unhardened⟩]))) 0 = .ok dd₀ ∧
      Descriptor.atDerivationIndex (.wsh (.ms (.multi .multi 2
          [.xPub ⟨some (⟨5⟩, []), xa, [.normal 0], .none⟩,
            .xPub ⟨some (⟨6⟩, []), xb, [.normal 0], .unhardened⟩]))) 7 = .ok dd₇ ∧
      dd₀ ≠ dd₇ ∧
      deriveFromPsbtKeyOrigins secp (.wsh (.ms (.multi .multi 2
          [.xPub ⟨some (⟨5⟩, []), xa, [.normal 0], .none⟩,
            .xPub ⟨some (⟨6⟩, []), xb, [.normal 0], .unhardened⟩])))
        (BTreeMap.collect [ea, eb]) = .ok (some dd₀) := by
  have hget : (BTreeMap.collect [ea, eb]).getKeyValue ea.1 = some ea := by
    refine BTreeMap.getKeyValue_collect_of_unique (List.mem_cons_self _ _) fun e' he' h => ?_
    rcases List.mem_pair.mp he' with rfl | rfl
    · rfl
    · rw [hb.fingerprint_eq, ha.fingerprint_eq] at h; cases h
  rw [ha.fingerprint_eq] at hget
  refine ⟨rfl, rfl, fun j hj => hj.index_eq secp (by simp) hb, _, _, rfl, rfl, by simp, ?_⟩
  exact deriveFromPsbtKeyOrigins_of_first secp (show _ = [] ++ _ from rfl) nofun
    (matchKey_of_backs secp (by simp) hget ha) rfl

theorem deriveFromPsbtKeyOrigins_fixed_key_first_sample :
    Backs SecpCtx.sample ⟨some (⟨5⟩, []), ⟨.main, ⟨2⟩, ⟨3⟩⟩, [.normal 0], .none⟩ 0
        (⟨5⟩, ([.normal 0], .fullKey (.new ⟨2 * 2 ^ 32 + 1⟩))) ∧
      Backs SecpCtx.sample ⟨some (⟨6⟩, []), ⟨.main, ⟨4⟩, ⟨3⟩⟩, [.normal 0], .unhardened⟩ 7
        (⟨6⟩, ([.normal 0, .normal 7], .fullKey (.new ⟨(4 * 2 ^ 32 + 1) * 2 ^ 32 + 8⟩))) ∧
      ∃ dd₀ dd₇, Descriptor.atDerivationIndex (.wsh (.ms (.multi .multi 2
            [.xPub ⟨some (⟨5⟩, []), ⟨.main, ⟨2⟩, ⟨3⟩⟩, [.normal 0], .none⟩,
              .xPub ⟨some (⟨6⟩, []), ⟨.main, ⟨4⟩, ⟨3⟩⟩, [.normal 0], .unhardened⟩]))) 0 = .ok dd₀ ∧
        Descriptor.atDerivationIndex (.wsh (.ms (.multi .multi 2
            [.xPub ⟨some (⟨5⟩, []), ⟨.main, ⟨2⟩, ⟨3⟩⟩, [.normal 0], .none⟩,
              .xPub ⟨some (⟨6⟩, []), ⟨.main, ⟨4⟩, ⟨3⟩⟩, [.normal 0], .unhardened⟩]))) 7 = .ok dd₇ ∧
        dd₀ ≠ dd₇ ∧
        deriveFromPsbtKeyOrigins SecpCtx.sample (.wsh (.ms (.multi .multi 2
            [.xPub ⟨some (⟨5⟩, []), ⟨.main, ⟨2⟩, ⟨3⟩⟩, [.normal 0], .none⟩,
              .xPub ⟨some (⟨6⟩, []), ⟨.main, ⟨4⟩, ⟨3⟩⟩, [.normal 0], .unhardened⟩])))
          (BTreeMap.collect [(⟨5⟩, ([.normal 0], .fullKey (.new ⟨2 * 2 ^ 32 + 1⟩))),
            (⟨6⟩, ([.normal 0, .normal 7], .fullKey (.new ⟨(4 * 2 ^ 32 + 1) * 2 ^ 32 + 8⟩)))]) =
          .ok (some dd₀) := by
  have ha : Backs SecpCtx.sample ⟨some (⟨5⟩, []), ⟨.main, ⟨2⟩, ⟨3⟩⟩, [.normal 0], .none⟩ 0
      (⟨5⟩, ([.normal 0], .fullKey (.new ⟨2 * 2 ^ 32 + 1⟩))) :=
    ⟨fun _ => rfl, rfl, _, rfl, rfl, _, rfl, rfl⟩
  have hb : Backs SecpCtx.sample ⟨some (⟨6⟩, []), ⟨.main, ⟨4⟩, ⟨3⟩⟩, [.normal 0], .unhardened⟩ 7
      (⟨6⟩, ([.normal 0, .normal 7], .fullKey (.new ⟨(4 * 2 ^ 32 + 1) * 2 ^ 32 + 8⟩))) :=
    ⟨nofun, rfl, _, rfl, rfl, _, rfl, rfl⟩
  exact ⟨ha, hb, (deriveFromPsbtKeyOrigins_fixed_key_first SecpCtx.sample Grammar.sample _ _ _ _
    ha hb).2.2.2⟩

end BdkWallet
