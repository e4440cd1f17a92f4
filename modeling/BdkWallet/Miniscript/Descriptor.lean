import BdkWallet.Miniscript.Key

/-!
# Descriptors as key-parameterised trees

`miniscript::Descriptor<Pk>`: the top-level descriptor kinds, the miniscript fragments under
them and the taproot script tree. Script compilation and the type system of miniscript are
not modelled: the wallet reads a descriptor through the positions of its keys, enumerated by
`for_each_key`, and through `translate_pk`, which rebuilds the tree with each key replaced.
Both visit the keys in the same order: left to right through the fragments, and for a
taproot descriptor the script leaves before the internal key.

Every translator of the wallet clones or discards the hash images of hash locks, so
`translatePk` copies them and takes a callback for keys only.

## Main definitions

* `Miniscript`, `TapTree`, `Descriptor` and `Descriptor.keys`.
* `Descriptor.translatePk` and `Descriptor.map`, its total form.
* `Descriptor.descType`, `Descriptor.atDerivationIndex`.

## Main results

* `Descriptor.keys_translatePk`: translation fails with the error of the first key whose
  callback fails, and otherwise yields the callbacks' results in key order.
* `Descriptor.translatePk_of_forall`: a callback that succeeds on every key translates as
  `map` does.
* `Descriptor.translatePk_congr`: a translation reads each key only through the callback.
* `Descriptor.descType_translatePk`: a translation that succeeds keeps the descriptor's type.
* `Descriptor.translatePk_map`: translating a descriptor whose keys were replaced is translating
  it and replacing the results.
-/

namespace BdkWallet

/-! ## Traversals of a list in `Except` -/

namespace Except

variable {ε α β : Type}

@[simp] theorem ok_bind (a : α) (f : α → Except ε β) : (Except.ok a >>= f) = f a := rfl
@[simp] theorem error_bind (e : ε) (f : α → Except ε β) : (Except.error e >>= f) = .error e := rfl
@[simp] theorem map_ok' (a : α) (f : α → β) : (f <$> Except.ok a : Except ε β) = .ok (f a) := rfl
@[simp] theorem map_error' (e : ε) (f : α → β) : (f <$> Except.error e : Except ε β) = .error e :=
  rfl

/-- A bind that succeeds ran its continuation on a success. -/
theorem bind_eq_ok {x : Except ε α} {f : α → Except ε β} {b : β} :
    x >>= f = .ok b ↔ ∃ a, x = .ok a ∧ f a = .ok b := by
  cases x with
  | error e => exact ⟨nofun, fun ⟨_, h, _⟩ => nomatch h⟩
  | ok a => exact ⟨fun h => ⟨a, rfl, h⟩, fun ⟨_, h, hf⟩ => by cases h; exact hf⟩

theorem map_eq_ok {x : Except ε α} {f : α → β} {b : β} :
    f <$> x = .ok b ↔ ∃ a, x = .ok a ∧ f a = b := by
  cases x with
  | error e => exact ⟨nofun, fun ⟨_, h, _⟩ => nomatch h⟩
  | ok a => exact ⟨fun h => ⟨a, rfl, Except.ok.inj h⟩, fun ⟨_, h, hf⟩ => by cases h; cases hf; rfl⟩

/-- A bind that fails failed first or in its continuation. -/
theorem bind_eq_error {x : Except ε α} {f : α → Except ε β} {e : ε} :
    x >>= f = .error e ↔ x = .error e ∨ ∃ a, x = .ok a ∧ f a = .error e := by
  cases x with
  | error e' =>
    exact ⟨fun h => .inl (by cases h; rfl), fun h => h.elim (by rintro ⟨⟩; rfl) nofun⟩
  | ok a => exact ⟨fun h => .inr ⟨a, rfl, h⟩, fun h => h.elim nofun fun ⟨_, h, hf⟩ => by
      cases h; exact hf⟩

theorem map_eq_error {x : Except ε α} {f : α → β} {e : ε} : f <$> x = .error e ↔ x = .error e := by
  cases x <;> constructor <;> intro h <;> cases h <;> rfl

end Except

namespace List

variable {P Q ε : Type} {f : P → Except ε Q}

theorem mapM_except_of_forall {g : P → Q} :
    ∀ {l : List P}, (∀ k ∈ l, f k = .ok (g k)) → l.mapM f = .ok (l.map g)
  | [], _ => rfl
  | k :: l, h => by
    simp [-List.mapM, h k (List.mem_cons_self _ _),
      mapM_except_of_forall fun k hk => h k (List.mem_cons_of_mem _ hk)]

theorem mapM_except_error : ∀ {l : List P} {e : ε}, l.mapM f = .error e → ∃ k ∈ l, f k = .error e
  | [], _, h => nomatch h
  | k :: l, e, h => by
    cases hk : f k with
    | error e' =>
      rw [List.mapM_cons, hk] at h
      cases h
      exact ⟨k, List.mem_cons_self _ _, hk⟩
    | ok q =>
      cases hl : l.mapM f with
      | error e' =>
        rw [List.mapM_cons, hk, hl] at h
        cases h
        obtain ⟨k', hk', he⟩ := mapM_except_error hl
        exact ⟨k', List.mem_cons_of_mem _ hk', he⟩
      | ok qs => rw [List.mapM_cons, hk, hl] at h; nomatch h

theorem mapM_except_ok : ∀ {l : List P} {l' : List Q}, l.mapM f = .ok l' →
    List.Forall₂ (fun k q => f k = .ok q) l l'
  | [], l', h => by cases h; exact .nil
  | k :: l, l', h => by
    cases hk : f k with
    | error e => rw [List.mapM_cons, hk] at h; nomatch h
    | ok q =>
      cases hl : l.mapM f with
      | error e => rw [List.mapM_cons, hk, hl] at h; nomatch h
      | ok qs =>
        rw [List.mapM_cons, hk, hl] at h
        cases h
        exact .cons hk (mapM_except_ok hl)

/-- A traversal reads each element only through the callback. -/
theorem mapM_except_congr {f' : P → Except ε Q} :
    ∀ {l : List P}, (∀ k ∈ l, f k = f' k) → l.mapM f = l.mapM f'
  | [], _ => rfl
  | k :: l, h => by
    rw [List.mapM_cons, List.mapM_cons, h k (List.mem_cons_self _ _),
      mapM_except_congr fun k hk => h k (List.mem_cons_of_mem _ hk)]

/-- Traversing a mapped list is traversing it and mapping the results, when the callbacks
agree on every element. -/
theorem mapM_except_map {P' Q' : Type} {g : P → P'} {f : P' → Except ε Q'} {f' : P → Except ε Q}
    {h : Q → Q'} : ∀ {l : List P}, (∀ k ∈ l, f (g k) = h <$> f' k) →
      (l.map g).mapM f = List.map h <$> l.mapM f'
  | [], _ => rfl
  | k :: l, hk => by
    rw [List.map_cons, List.mapM_cons, List.mapM_cons, hk k (List.mem_cons_self _ _),
      mapM_except_map fun k' hk' => hk k' (List.mem_cons_of_mem _ hk')]
    cases f' k <;> cases l.mapM f' <;> rfl

theorem Forall₂.exists_left {α β : Type} {R : α → β → Prop} :
    ∀ {l₁ : List α} {l₂ : List β}, List.Forall₂ R l₁ l₂ → ∀ a ∈ l₁, ∃ b ∈ l₂, R a b
  | _, _, .nil, _, h => nomatch h
  | _, _, .cons hab h, a, ha => by
    rcases List.mem_cons.mp ha with rfl | ha
    · exact ⟨_, List.mem_cons_self _ _, hab⟩
    · obtain ⟨b, hb, hr⟩ := exists_left h a ha
      exact ⟨b, List.mem_cons_of_mem _ hb, hr⟩

theorem Forall₂.exists_right {α β : Type} {R : α → β → Prop} :
    ∀ {l₁ : List α} {l₂ : List β}, List.Forall₂ R l₁ l₂ → ∀ b ∈ l₂, ∃ a ∈ l₁, R a b
  | _, _, .nil, _, h => nomatch h
  | _, _, .cons hab h, b, hb => by
    rcases List.mem_cons.mp hb with rfl | hb
    · exact ⟨_, List.mem_cons_self _ _, hab⟩
    · obtain ⟨a, ha, hr⟩ := exists_right h b hb
      exact ⟨a, List.mem_cons_of_mem _ ha, hr⟩

end List

/-! ## The tree -/

/-- `miniscript::MiniscriptKey::Sha256` and the other hash images, as numbers. -/
abbrev HashImage := Nat

/-- The fragments of `Terminal` that hold no key. -/
inductive Terminal where
  | true_
  | false_
  | after (n : Nat)
  | older (n : Nat)
  | sha256 (h : HashImage)
  | hash256 (h : HashImage)
  | ripemd160 (h : HashImage)
  | hash160 (h : HashImage)
  | rawPkH (h : HashImage)
deriving DecidableEq, Repr

/-- The key fragments `pk_k` and `pk_h`. -/
inductive PkFrag where
  | pkK
  | pkH
deriving DecidableEq, Repr

/-- The multisig fragments `multi` and `multi_a`. -/
inductive MultiFrag where
  | multi
  | multiA
deriving DecidableEq, Repr

/-- The wrappers `a: s: c: d: v: j: n:`. -/
inductive Wrapper where
  | alt
  | swap
  | check
  | dupIf
  | verify
  | nonZero
  | zeroNotEqual
deriving DecidableEq, Repr

/-- The binary combinators. -/
inductive BinOp where
  | andV
  | andB
  | orB
  | orD
  | orC
  | orI
deriving DecidableEq, Repr

mutual
/-- `Miniscript<Pk, Ctx>` with its `Terminal` node; the script context is not modelled. -/
inductive Miniscript (Pk : Type) where
  | terminal (t : Terminal)
  | pk (frag : PkFrag) (key : Pk)
  | multi (frag : MultiFrag) (k : Nat) (keys : List Pk)
  | wrap (w : Wrapper) (sub : Miniscript Pk)
  | bin (op : BinOp) (left right : Miniscript Pk)
  | andOr (a b c : Miniscript Pk)
  | thresh (k : Nat) (subs : Subs Pk)
/-- The sub-fragments of a `thresh`. -/
inductive Subs (Pk : Type) where
  | nil
  | cons (sub : Miniscript Pk) (rest : Subs Pk)
end

deriving instance DecidableEq for Miniscript

/-- `TapTree<Pk>`. -/
inductive TapTree (Pk : Type) where
  | tree (left right : TapTree Pk)
  | leaf (ms : Miniscript Pk)
deriving DecidableEq

/-- `WshInner<Pk>`. -/
inductive WshInner (Pk : Type) where
  | sortedMulti (k : Nat) (keys : List Pk)
  | ms (ms : Miniscript Pk)
deriving DecidableEq

/-- `ShInner<Pk>`. -/
inductive ShInner (Pk : Type) where
  | wsh (inner : WshInner Pk)
  | wpkh (key : Pk)
  | sortedMulti (k : Nat) (keys : List Pk)
  | ms (ms : Miniscript Pk)
deriving DecidableEq

/-- `Descriptor<Pk>`. -/
inductive Descriptor (Pk : Type) where
  | bare (ms : Miniscript Pk)
  | pkh (key : Pk)
  | wpkh (key : Pk)
  | sh (inner : ShInner Pk)
  | wsh (inner : WshInner Pk)
  | tr (internalKey : Pk) (tree : Option (TapTree Pk))
deriving DecidableEq

/-- `ExtendedDescriptor`. -/
abbrev ExtendedDescriptor := Descriptor DescriptorPublicKey

/-- `DerivedDescriptor`. -/
abbrev DerivedDescriptor := Descriptor DefiniteDescriptorKey

variable {P Q R ε : Type}

/-! ## Keys in `for_each_key` order -/

mutual
/-- The keys of a fragment, in `for_each_key` order. -/
def Miniscript.keys : Miniscript P → List P
  | .terminal _ => []
  | .pk _ key => [key]
  | .multi _ _ keys => keys
  | .wrap _ sub => sub.keys
  | .bin _ l r => l.keys ++ r.keys
  | .andOr a b c => a.keys ++ b.keys ++ c.keys
  | .thresh _ subs => subs.keys
/-- The keys of the sub-fragments of a `thresh`, in order. -/
def Subs.keys : Subs P → List P
  | .nil => []
  | .cons s rest => s.keys ++ rest.keys
end

/-- The keys of the script leaves, left to right. -/
def TapTree.keys : TapTree P → List P
  | .tree l r => l.keys ++ r.keys
  | .leaf m => m.keys

/-- `ForEachKey for Wsh`. -/
def WshInner.keys : WshInner P → List P
  | .sortedMulti _ keys => keys
  | .ms m => m.keys

/-- `ForEachKey for Sh`. -/
def ShInner.keys : ShInner P → List P
  | .wsh inner => inner.keys
  | .wpkh key => [key]
  | .sortedMulti _ keys => keys
  | .ms m => m.keys

/-- `ForEachKey for Descriptor`: the keys `for_each_key` visits, in order. `for_any_key`
stops at the first key of this list that satisfies its predicate. A taproot descriptor's
script leaves come before its internal key. -/
def Descriptor.keys : Descriptor P → List P
  | .bare m => m.keys
  | .pkh key => [key]
  | .wpkh key => [key]
  | .sh inner => inner.keys
  | .wsh inner => inner.keys
  | .tr internalKey tree => (tree.map TapTree.keys).getD [] ++ [internalKey]

/-- `ForEachKey::for_any_key`. -/
def Descriptor.forAnyKey (d : Descriptor P) (pred : P → Bool) : Bool := d.keys.any pred

/-! ## Translation -/

mutual
/-- `Miniscript::translate_pk`. -/
def Miniscript.translatePk (f : P → Except ε Q) : Miniscript P → Except ε (Miniscript Q)
  | .terminal t => pure (.terminal t)
  | .pk frag key => .pk frag <$> f key
  | .multi frag k keys => .multi frag k <$> keys.mapM f
  | .wrap w sub => .wrap w <$> sub.translatePk f
  | .bin op l r => do pure (.bin op (← l.translatePk f) (← r.translatePk f))
  | .andOr a b c => do
    pure (.andOr (← a.translatePk f) (← b.translatePk f) (← c.translatePk f))
  | .thresh k subs => .thresh k <$> subs.translatePk f
/-- `translate_pk` over the sub-fragments of a `thresh`. -/
def Subs.translatePk (f : P → Except ε Q) : Subs P → Except ε (Subs Q)
  | .nil => pure .nil
  | .cons s rest => do pure (.cons (← s.translatePk f) (← rest.translatePk f))
end

/-- `TapTree::translate_helper`. -/
def TapTree.translatePk (f : P → Except ε Q) : TapTree P → Except ε (TapTree Q)
  | .tree l r => do pure (.tree (← l.translatePk f) (← r.translatePk f))
  | .leaf ms => .leaf <$> ms.translatePk f

/-- `TranslatePk for Wsh`. -/
def WshInner.translatePk (f : P → Except ε Q) : WshInner P → Except ε (WshInner Q)
  | .sortedMulti k keys => .sortedMulti k <$> keys.mapM f
  | .ms m => .ms <$> m.translatePk f

/-- `TranslatePk for Sh`. -/
def ShInner.translatePk (f : P → Except ε Q) : ShInner P → Except ε (ShInner Q)
  | .wsh inner => .wsh <$> inner.translatePk f
  | .wpkh key => .wpkh <$> f key
  | .sortedMulti k keys => .sortedMulti k <$> keys.mapM f
  | .ms m => .ms <$> m.translatePk f

/-- `Descriptor::translate_pk`. The script tree of a taproot descriptor is translated
before its internal key, as in `Tr::translate_pk`. -/
def Descriptor.translatePk (f : P → Except ε Q) : Descriptor P → Except ε (Descriptor Q)
  | .bare ms => .bare <$> ms.translatePk f
  | .pkh key => .pkh <$> f key
  | .wpkh key => .wpkh <$> f key
  | .sh inner => .sh <$> inner.translatePk f
  | .wsh inner => .wsh <$> inner.translatePk f
  | .tr internalKey tree => do
    let tree' ← match tree with
      | some t => some <$> t.translatePk f
      | none => pure none
    pure (.tr (← f internalKey) tree')

/-! ## Total translation -/

mutual
/-- A fragment with every key replaced by its image under `g`. -/
def Miniscript.map (g : P → Q) : Miniscript P → Miniscript Q
  | .terminal t => .terminal t
  | .pk frag key => .pk frag (g key)
  | .multi frag k keys => .multi frag k (keys.map g)
  | .wrap w sub => .wrap w (sub.map g)
  | .bin op l r => .bin op (l.map g) (r.map g)
  | .andOr a b c => .andOr (a.map g) (b.map g) (c.map g)
  | .thresh k subs => .thresh k (subs.map g)
/-- `Miniscript.map` over the sub-fragments of a `thresh`. -/
def Subs.map (g : P → Q) : Subs P → Subs Q
  | .nil => .nil
  | .cons s rest => .cons (s.map g) (rest.map g)
end

/-- `TapTree` with every key replaced. -/
def TapTree.map (g : P → Q) : TapTree P → TapTree Q
  | .tree l r => .tree (l.map g) (r.map g)
  | .leaf ms => .leaf (ms.map g)

/-- `WshInner` with every key replaced. -/
def WshInner.map (g : P → Q) : WshInner P → WshInner Q
  | .sortedMulti k keys => .sortedMulti k (keys.map g)
  | .ms m => .ms (m.map g)

/-- `ShInner` with every key replaced. -/
def ShInner.map (g : P → Q) : ShInner P → ShInner Q
  | .wsh inner => .wsh (inner.map g)
  | .wpkh key => .wpkh (g key)
  | .sortedMulti k keys => .sortedMulti k (keys.map g)
  | .ms m => .ms (m.map g)

/-- A descriptor with every key replaced by its image under `g`: what `translate_pk` builds
from a callback that never fails. -/
def Descriptor.map (g : P → Q) : Descriptor P → Descriptor Q
  | .bare ms => .bare (ms.map g)
  | .pkh key => .pkh (g key)
  | .wpkh key => .wpkh (g key)
  | .sh inner => .sh (inner.map g)
  | .wsh inner => .wsh (inner.map g)
  | .tr internalKey tree => .tr (g internalKey) (tree.map (TapTree.map g))

/-! ## Translation visits the keys in order -/

mutual
theorem Miniscript.keys_translatePk (f : P → Except ε Q) : ∀ m : Miniscript P,
    Miniscript.keys <$> m.translatePk f = m.keys.mapM f
  | .terminal _ => rfl
  | .pk _ _ => by
    simp only [Miniscript.translatePk, Miniscript.keys, Functor.map_map, List.mapM_cons,
      List.mapM_nil, bind_pure_comp, map_pure]
  | .multi _ _ _ => by simp only [Miniscript.translatePk, Miniscript.keys, Functor.map_map, id_map']
  | .wrap _ sub => by
    simp only [Miniscript.translatePk, Miniscript.keys, Functor.map_map, ← sub.keys_translatePk f]
  | .bin _ l r => by
    rw [Miniscript.keys, List.mapM_append, ← l.keys_translatePk f, ← r.keys_translatePk f]
    simp only [Miniscript.translatePk, Miniscript.keys, bind_pure_comp, map_bind, Functor.map_map,
      bind_map_left]
  | .andOr a b c => by
    rw [Miniscript.keys, List.mapM_append, List.mapM_append, ← a.keys_translatePk f,
      ← b.keys_translatePk f, ← c.keys_translatePk f]
    simp only [Miniscript.translatePk, Miniscript.keys, bind_pure_comp, map_bind, Functor.map_map,
      List.append_assoc, bind_map_left, bind_assoc]
  | .thresh _ subs => by
    simp only [Miniscript.translatePk, Miniscript.keys, Functor.map_map, ← subs.keys_translatePk f]
theorem Subs.keys_translatePk (f : P → Except ε Q) : ∀ s : Subs P,
    Subs.keys <$> s.translatePk f = s.keys.mapM f
  | .nil => rfl
  | .cons s rest => by
    rw [Subs.keys, List.mapM_append, ← s.keys_translatePk f, ← rest.keys_translatePk f]
    simp only [Subs.translatePk, Subs.keys, bind_pure_comp, map_bind, Functor.map_map,
      bind_map_left]
end

theorem TapTree.keys_translatePk (f : P → Except ε Q) : ∀ t : TapTree P,
    TapTree.keys <$> t.translatePk f = t.keys.mapM f
  | .tree l r => by
    rw [TapTree.keys, List.mapM_append, ← l.keys_translatePk f, ← r.keys_translatePk f]
    simp only [TapTree.translatePk, bind_pure_comp, map_bind, Functor.map_map, TapTree.keys,
      bind_map_left]
  | .leaf m => by
    simp only [TapTree.translatePk, TapTree.keys, Functor.map_map, ← m.keys_translatePk f]

theorem WshInner.keys_translatePk (f : P → Except ε Q) (w : WshInner P) :
    WshInner.keys <$> w.translatePk f = w.keys.mapM f := by
  cases w with
  | sortedMulti => simp only [WshInner.translatePk, WshInner.keys, Functor.map_map, id_map']
  | ms m =>
    simp only [WshInner.translatePk, WshInner.keys, Functor.map_map, ← m.keys_translatePk f]

theorem ShInner.keys_translatePk (f : P → Except ε Q) (s : ShInner P) :
    ShInner.keys <$> s.translatePk f = s.keys.mapM f := by
  cases s with
  | wsh w => simp only [ShInner.translatePk, ShInner.keys, Functor.map_map, ← w.keys_translatePk f]
  | ms m => simp only [ShInner.translatePk, ShInner.keys, Functor.map_map, ← m.keys_translatePk f]
  | _ =>
    simp only [ShInner.translatePk, ShInner.keys, Functor.map_map, id_map', List.mapM_cons,
      List.mapM_nil, bind_pure_comp, map_pure]

/-- **Translation visits the keys in order**: it fails with the error of the first key whose
callback fails, and otherwise its result has the callbacks' results as keys. -/
theorem Descriptor.keys_translatePk (f : P → Except ε Q) (d : Descriptor P) :
    Descriptor.keys <$> d.translatePk f = d.keys.mapM f := by
  cases d with
  | bare m => simp only [translatePk, keys, Functor.map_map, ← m.keys_translatePk f]
  | sh s => simp only [translatePk, keys, Functor.map_map, ← s.keys_translatePk f]
  | wsh w => simp only [translatePk, keys, Functor.map_map, ← w.keys_translatePk f]
  | tr internalKey tree =>
    cases tree with
    | none =>
      simp only [translatePk, keys, bind_pure_comp, pure_bind, Functor.map_map, Option.map_none',
        Option.getD_none, List.nil_append, List.mapM_cons, List.mapM_nil, map_pure]
    | some t =>
      rw [keys, List.mapM_append, Option.map_some', Option.getD_some, ← t.keys_translatePk f]
      simp only [translatePk, keys, bind_pure_comp, bind_map_left, map_bind, Functor.map_map,
        Option.map_some', Option.getD_some, List.mapM_cons, List.mapM_nil, map_pure]
  | _ =>
    simp only [translatePk, keys, Functor.map_map, List.mapM_cons, List.mapM_nil, bind_pure_comp,
      map_pure]

/-! ## A callback that never fails -/

mutual
theorem Miniscript.translatePk_of_forall {f : P → Except ε Q} {g : P → Q} :
    ∀ m : Miniscript P, (∀ k ∈ m.keys, f k = .ok (g k)) → m.translatePk f = .ok (m.map g)
  | .terminal _, _ => rfl
  | .pk _ key, h => by rw [Miniscript.translatePk, h key (List.mem_singleton_self _)]; rfl
  | .multi _ _ keys, h => by
    rw [Miniscript.translatePk, List.mapM_except_of_forall (l := keys) h]; rfl
  | .wrap _ sub, h => by rw [Miniscript.translatePk, sub.translatePk_of_forall h]; rfl
  | .bin _ l r, h => by
    simp only [Miniscript.keys, List.mem_append] at h
    rw [Miniscript.translatePk, l.translatePk_of_forall fun k hk => h k (.inl hk),
      r.translatePk_of_forall fun k hk => h k (.inr hk)]
    rfl
  | .andOr a b c, h => by
    simp only [Miniscript.keys, List.mem_append] at h
    rw [Miniscript.translatePk, a.translatePk_of_forall fun k hk => h k (.inl (.inl hk)),
      b.translatePk_of_forall fun k hk => h k (.inl (.inr hk)),
      c.translatePk_of_forall fun k hk => h k (.inr hk)]
    rfl
  | .thresh _ subs, h => by rw [Miniscript.translatePk, subs.translatePk_of_forall h]; rfl
theorem Subs.translatePk_of_forall {f : P → Except ε Q} {g : P → Q} :
    ∀ s : Subs P, (∀ k ∈ s.keys, f k = .ok (g k)) → s.translatePk f = .ok (s.map g)
  | .nil, _ => rfl
  | .cons s rest, h => by
    simp only [Subs.keys, List.mem_append] at h
    rw [Subs.translatePk, s.translatePk_of_forall fun k hk => h k (.inl hk),
      rest.translatePk_of_forall fun k hk => h k (.inr hk)]
    rfl
end

theorem TapTree.translatePk_of_forall {f : P → Except ε Q} {g : P → Q} :
    ∀ t : TapTree P, (∀ k ∈ t.keys, f k = .ok (g k)) → t.translatePk f = .ok (t.map g)
  | .tree l r, h => by
    simp only [TapTree.keys, List.mem_append] at h
    rw [TapTree.translatePk, l.translatePk_of_forall fun k hk => h k (.inl hk),
      r.translatePk_of_forall fun k hk => h k (.inr hk)]
    rfl
  | .leaf m, h => by rw [TapTree.translatePk, m.translatePk_of_forall h]; rfl

theorem WshInner.translatePk_of_forall {f : P → Except ε Q} {g : P → Q} (w : WshInner P)
    (h : ∀ k ∈ w.keys, f k = .ok (g k)) : w.translatePk f = .ok (w.map g) := by
  cases w with
  | sortedMulti _ keys => rw [WshInner.translatePk, List.mapM_except_of_forall (l := keys) h]; rfl
  | ms m => rw [WshInner.translatePk, m.translatePk_of_forall h]; rfl

theorem ShInner.translatePk_of_forall {f : P → Except ε Q} {g : P → Q} (s : ShInner P)
    (h : ∀ k ∈ s.keys, f k = .ok (g k)) : s.translatePk f = .ok (s.map g) := by
  cases s with
  | wsh w => rw [ShInner.translatePk, w.translatePk_of_forall h]; rfl
  | wpkh key => rw [ShInner.translatePk, h key (List.mem_singleton_self _)]; rfl
  | sortedMulti _ keys => rw [ShInner.translatePk, List.mapM_except_of_forall (l := keys) h]; rfl
  | ms m => rw [ShInner.translatePk, m.translatePk_of_forall h]; rfl

/-- **A callback that succeeds on every key translates as `map` does.** -/
theorem Descriptor.translatePk_of_forall {f : P → Except ε Q} {g : P → Q} (d : Descriptor P)
    (h : ∀ k ∈ d.keys, f k = .ok (g k)) : d.translatePk f = .ok (d.map g) := by
  cases d with
  | bare m => rw [translatePk, m.translatePk_of_forall h]; rfl
  | pkh key => rw [translatePk, h key (List.mem_singleton_self _)]; rfl
  | wpkh key => rw [translatePk, h key (List.mem_singleton_self _)]; rfl
  | sh s => rw [translatePk, s.translatePk_of_forall h]; rfl
  | wsh w => rw [translatePk, w.translatePk_of_forall h]; rfl
  | tr internalKey tree =>
    simp only [keys, List.mem_append, List.mem_singleton] at h
    have hk : f internalKey = .ok (g internalKey) := h _ (.inr rfl)
    cases tree with
    | none => rw [translatePk, hk]; rfl
    | some t => rw [translatePk, hk, t.translatePk_of_forall fun k hk => h k (.inl hk)]; rfl

/-! ## What a translation reads -/

mutual
theorem Miniscript.translatePk_congr {f f' : P → Except ε Q} :
    ∀ m : Miniscript P, (∀ k ∈ m.keys, f k = f' k) → m.translatePk f = m.translatePk f'
  | .terminal _, _ => rfl
  | .pk _ key, h => by
    rw [Miniscript.translatePk, Miniscript.translatePk, h key (List.mem_singleton_self _)]
  | .multi _ _ keys, h => by
    rw [Miniscript.translatePk, Miniscript.translatePk, List.mapM_except_congr (l := keys) h]
  | .wrap _ sub, h => by
    rw [Miniscript.translatePk, Miniscript.translatePk, sub.translatePk_congr h]
  | .bin _ l r, h => by
    simp only [Miniscript.keys, List.mem_append] at h
    rw [Miniscript.translatePk, Miniscript.translatePk,
      l.translatePk_congr fun k hk => h k (.inl hk), r.translatePk_congr fun k hk => h k (.inr hk)]
  | .andOr a b c, h => by
    simp only [Miniscript.keys, List.mem_append] at h
    rw [Miniscript.translatePk, Miniscript.translatePk,
      a.translatePk_congr fun k hk => h k (.inl (.inl hk)),
      b.translatePk_congr fun k hk => h k (.inl (.inr hk)),
      c.translatePk_congr fun k hk => h k (.inr hk)]
  | .thresh _ subs, h => by
    rw [Miniscript.translatePk, Miniscript.translatePk, subs.translatePk_congr h]
theorem Subs.translatePk_congr {f f' : P → Except ε Q} :
    ∀ s : Subs P, (∀ k ∈ s.keys, f k = f' k) → s.translatePk f = s.translatePk f'
  | .nil, _ => rfl
  | .cons s rest, h => by
    simp only [Subs.keys, List.mem_append] at h
    rw [Subs.translatePk, Subs.translatePk, s.translatePk_congr fun k hk => h k (.inl hk),
      rest.translatePk_congr fun k hk => h k (.inr hk)]
end

theorem TapTree.translatePk_congr {f f' : P → Except ε Q} :
    ∀ t : TapTree P, (∀ k ∈ t.keys, f k = f' k) → t.translatePk f = t.translatePk f'
  | .tree l r, h => by
    simp only [TapTree.keys, List.mem_append] at h
    rw [TapTree.translatePk, TapTree.translatePk, l.translatePk_congr fun k hk => h k (.inl hk),
      r.translatePk_congr fun k hk => h k (.inr hk)]
  | .leaf m, h => by rw [TapTree.translatePk, TapTree.translatePk, m.translatePk_congr h]

theorem WshInner.translatePk_congr {f f' : P → Except ε Q} (w : WshInner P)
    (h : ∀ k ∈ w.keys, f k = f' k) : w.translatePk f = w.translatePk f' := by
  cases w with
  | sortedMulti _ keys =>
    rw [WshInner.translatePk, WshInner.translatePk, List.mapM_except_congr (l := keys) h]
  | ms m => rw [WshInner.translatePk, WshInner.translatePk, m.translatePk_congr h]

theorem ShInner.translatePk_congr {f f' : P → Except ε Q} (s : ShInner P)
    (h : ∀ k ∈ s.keys, f k = f' k) : s.translatePk f = s.translatePk f' := by
  cases s with
  | wsh w => rw [ShInner.translatePk, ShInner.translatePk, w.translatePk_congr h]
  | wpkh key => rw [ShInner.translatePk, ShInner.translatePk, h key (List.mem_singleton_self _)]
  | sortedMulti _ keys =>
    rw [ShInner.translatePk, ShInner.translatePk, List.mapM_except_congr (l := keys) h]
  | ms m => rw [ShInner.translatePk, ShInner.translatePk, m.translatePk_congr h]

/-- **A translation reads each key only through the callback.** -/
theorem Descriptor.translatePk_congr {f f' : P → Except ε Q} (d : Descriptor P)
    (h : ∀ k ∈ d.keys, f k = f' k) : d.translatePk f = d.translatePk f' := by
  cases d with
  | bare m => rw [translatePk, translatePk, m.translatePk_congr h]
  | pkh key => rw [translatePk, translatePk, h key (List.mem_singleton_self _)]
  | wpkh key => rw [translatePk, translatePk, h key (List.mem_singleton_self _)]
  | sh s => rw [translatePk, translatePk, s.translatePk_congr h]
  | wsh w => rw [translatePk, translatePk, w.translatePk_congr h]
  | tr internalKey tree =>
    simp only [keys, List.mem_append, List.mem_singleton] at h
    cases tree with
    | none => rw [translatePk, translatePk, h _ (.inr rfl)]
    | some t =>
      rw [translatePk, translatePk, h _ (.inr rfl), t.translatePk_congr fun k hk => h k (.inl hk)]

/-! ## Translating a descriptor whose keys were replaced -/

section Naturality

variable {P' Q' : Type}

mutual
theorem Miniscript.translatePk_map {g : P → P'} {f : P' → Except ε Q'} {f' : P → Except ε Q}
    {h : Q → Q'} : ∀ m : Miniscript P, (∀ k ∈ m.keys, f (g k) = h <$> f' k) →
      (m.map g).translatePk f = Miniscript.map h <$> m.translatePk f'
  | .terminal _, _ => rfl
  | .pk _ key, hk => by
    rw [Miniscript.map, Miniscript.translatePk, Miniscript.translatePk,
      hk key (List.mem_singleton_self _)]
    cases f' key <;> rfl
  | .multi _ _ keys, hk => by
    rw [Miniscript.map, Miniscript.translatePk, Miniscript.translatePk,
      List.mapM_except_map (l := keys) hk]
    cases keys.mapM f' <;> rfl
  | .wrap _ sub, hk => by
    rw [Miniscript.map, Miniscript.translatePk, Miniscript.translatePk, sub.translatePk_map hk]
    cases sub.translatePk f' <;> rfl
  | .bin _ l r, hk => by
    simp only [Miniscript.keys, List.mem_append] at hk
    rw [Miniscript.map, Miniscript.translatePk, Miniscript.translatePk,
      l.translatePk_map fun k hk' => hk k (.inl hk'),
      r.translatePk_map fun k hk' => hk k (.inr hk')]
    cases l.translatePk f' <;> cases r.translatePk f' <;> rfl
  | .andOr a b c, hk => by
    simp only [Miniscript.keys, List.mem_append] at hk
    rw [Miniscript.map, Miniscript.translatePk, Miniscript.translatePk,
      a.translatePk_map fun k hk' => hk k (.inl (.inl hk')),
      b.translatePk_map fun k hk' => hk k (.inl (.inr hk')),
      c.translatePk_map fun k hk' => hk k (.inr hk')]
    cases a.translatePk f' <;> cases b.translatePk f' <;> cases c.translatePk f' <;> rfl
  | .thresh _ subs, hk => by
    rw [Miniscript.map, Miniscript.translatePk, Miniscript.translatePk, subs.translatePk_map hk]
    cases subs.translatePk f' <;> rfl
theorem Subs.translatePk_map {g : P → P'} {f : P' → Except ε Q'} {f' : P → Except ε Q}
    {h : Q → Q'} : ∀ s : Subs P, (∀ k ∈ s.keys, f (g k) = h <$> f' k) →
      (s.map g).translatePk f = Subs.map h <$> s.translatePk f'
  | .nil, _ => rfl
  | .cons s rest, hk => by
    simp only [Subs.keys, List.mem_append] at hk
    rw [Subs.map, Subs.translatePk, Subs.translatePk,
      s.translatePk_map fun k hk' => hk k (.inl hk'),
      rest.translatePk_map fun k hk' => hk k (.inr hk')]
    cases s.translatePk f' <;> cases rest.translatePk f' <;> rfl
end

theorem TapTree.translatePk_map {g : P → P'} {f : P' → Except ε Q'} {f' : P → Except ε Q}
    {h : Q → Q'} : ∀ t : TapTree P, (∀ k ∈ t.keys, f (g k) = h <$> f' k) →
      (t.map g).translatePk f = TapTree.map h <$> t.translatePk f'
  | .tree l r, hk => by
    simp only [TapTree.keys, List.mem_append] at hk
    rw [TapTree.map, TapTree.translatePk, TapTree.translatePk,
      l.translatePk_map fun k hk' => hk k (.inl hk'),
      r.translatePk_map fun k hk' => hk k (.inr hk')]
    cases l.translatePk f' <;> cases r.translatePk f' <;> rfl
  | .leaf m, hk => by
    rw [TapTree.map, TapTree.translatePk, TapTree.translatePk, m.translatePk_map hk]
    cases m.translatePk f' <;> rfl

theorem WshInner.translatePk_map {g : P → P'} {f : P' → Except ε Q'} {f' : P → Except ε Q}
    {h : Q → Q'} (w : WshInner P) (hk : ∀ k ∈ w.keys, f (g k) = h <$> f' k) :
    (w.map g).translatePk f = WshInner.map h <$> w.translatePk f' := by
  cases w with
  | sortedMulti _ keys =>
    rw [WshInner.map, WshInner.translatePk, WshInner.translatePk,
      List.mapM_except_map (l := keys) hk]
    cases keys.mapM f' <;> rfl
  | ms m =>
    rw [WshInner.map, WshInner.translatePk, WshInner.translatePk, m.translatePk_map hk]
    cases m.translatePk f' <;> rfl

theorem ShInner.translatePk_map {g : P → P'} {f : P' → Except ε Q'} {f' : P → Except ε Q}
    {h : Q → Q'} (s : ShInner P) (hk : ∀ k ∈ s.keys, f (g k) = h <$> f' k) :
    (s.map g).translatePk f = ShInner.map h <$> s.translatePk f' := by
  cases s with
  | wsh w =>
    rw [ShInner.map, ShInner.translatePk, ShInner.translatePk, w.translatePk_map hk]
    cases w.translatePk f' <;> rfl
  | wpkh key =>
    rw [ShInner.map, ShInner.translatePk, ShInner.translatePk, hk key (List.mem_singleton_self _)]
    cases f' key <;> rfl
  | sortedMulti _ keys =>
    rw [ShInner.map, ShInner.translatePk, ShInner.translatePk, List.mapM_except_map (l := keys) hk]
    cases keys.mapM f' <;> rfl
  | ms m =>
    rw [ShInner.map, ShInner.translatePk, ShInner.translatePk, m.translatePk_map hk]
    cases m.translatePk f' <;> rfl

/-- **Translating a descriptor whose keys were replaced is translating it and replacing the
results**, when the callbacks agree on every key. -/
theorem Descriptor.translatePk_map {g : P → P'} {f : P' → Except ε Q'} {f' : P → Except ε Q}
    {h : Q → Q'} (d : Descriptor P) (hk : ∀ k ∈ d.keys, f (g k) = h <$> f' k) :
    (d.map g).translatePk f = Descriptor.map h <$> d.translatePk f' := by
  cases d with
  | bare m =>
    rw [map, translatePk, translatePk, m.translatePk_map hk]
    cases m.translatePk f' <;> rfl
  | pkh key =>
    rw [map, translatePk, translatePk, hk key (List.mem_singleton_self _)]
    cases f' key <;> rfl
  | wpkh key =>
    rw [map, translatePk, translatePk, hk key (List.mem_singleton_self _)]
    cases f' key <;> rfl
  | sh s =>
    rw [map, translatePk, translatePk, s.translatePk_map hk]
    cases s.translatePk f' <;> rfl
  | wsh w =>
    rw [map, translatePk, translatePk, w.translatePk_map hk]
    cases w.translatePk f' <;> rfl
  | tr internalKey tree =>
    simp only [keys, List.mem_append, List.mem_singleton] at hk
    cases tree with
    | none =>
      simp only [map, translatePk, Option.map_none', hk _ (.inr rfl)]
      cases f' internalKey <;> rfl
    | some t =>
      simp only [map, translatePk, Option.map_some', hk _ (.inr rfl),
        t.translatePk_map fun k hk' => hk k (.inl hk')]
      cases t.translatePk f' <;> cases f' internalKey <;> rfl

end Naturality

/-! ## Composing total translations -/

mutual
theorem Miniscript.map_map (g : P → Q) (g' : Q → R) : ∀ m : Miniscript P,
    (m.map g).map g' = m.map (g' ∘ g)
  | .terminal _ => rfl
  | .pk _ _ => rfl
  | .multi _ _ _ => by simp [Miniscript.map]
  | .wrap _ sub => by simp [Miniscript.map, sub.map_map]
  | .bin _ l r => by simp [Miniscript.map, l.map_map, r.map_map]
  | .andOr a b c => by simp [Miniscript.map, a.map_map, b.map_map, c.map_map]
  | .thresh _ subs => by simp [Miniscript.map, subs.map_map]
theorem Subs.map_map (g : P → Q) (g' : Q → R) : ∀ s : Subs P,
    (s.map g).map g' = s.map (g' ∘ g)
  | .nil => rfl
  | .cons s rest => by simp [Subs.map, s.map_map, rest.map_map]
end

theorem TapTree.map_map (g : P → Q) (g' : Q → R) : ∀ t : TapTree P,
    (t.map g).map g' = t.map (g' ∘ g)
  | .tree l r => by simp [TapTree.map, l.map_map, r.map_map]
  | .leaf m => by simp [TapTree.map, m.map_map]

theorem Descriptor.map_map (g : P → Q) (g' : Q → R) (d : Descriptor P) :
    (d.map g).map g' = d.map (g' ∘ g) := by
  cases d with
  | sh s =>
    cases s with
    | wsh w => cases w <;> simp [map, ShInner.map, WshInner.map, Miniscript.map_map]
    | _ => simp [map, ShInner.map, Miniscript.map_map]
  | wsh w => cases w <;> simp [map, WshInner.map, Miniscript.map_map]
  | tr internalKey tree => cases tree <;> simp [map, TapTree.map_map]
  | _ => simp [map, Miniscript.map_map]

/-- The keys of `d.map g` are the images of the keys of `d`. -/
theorem Descriptor.keys_map (g : P → Q) (d : Descriptor P) : (d.map g).keys = d.keys.map g := by
  have h := d.keys_translatePk (fun k => (.ok (g k) : Except Unit Q))
  rw [d.translatePk_of_forall (g := g) fun _ _ => rfl,
    List.mapM_except_of_forall (g := g) fun _ _ => rfl] at h
  exact Except.ok.inj h

/-- `map` reads a key only through the function applied to it. -/
theorem Descriptor.map_congr {g g' : P → Q} (d : Descriptor P) (h : ∀ k ∈ d.keys, g k = g' k) :
    d.map g = d.map g' := by
  have h' := d.translatePk_of_forall (f := fun k => (.ok (g k) : Except Unit Q)) (g := g')
    fun k hk => congrArg Except.ok (h k hk)
  rwa [d.translatePk_of_forall (g := g) fun _ _ => rfl, Except.ok.injEq] at h'

/-! ## Success and failure of a translation -/

/-- A translation that succeeds has the callbacks' results as its keys, in order. -/
theorem Descriptor.translatePk_ok {f : P → Except ε Q} {d : Descriptor P} {d' : Descriptor Q}
    (h : d.translatePk f = .ok d') : List.Forall₂ (fun k q => f k = .ok q) d.keys d'.keys := by
  have := d.keys_translatePk f
  rw [h] at this
  exact List.mapM_except_ok this.symm

/-- A translation that fails returns the error of one of the keys' callbacks. -/
theorem Descriptor.translatePk_error {f : P → Except ε Q} {d : Descriptor P} {e : ε}
    (h : d.translatePk f = .error e) : ∃ k ∈ d.keys, f k = .error e := by
  have := d.keys_translatePk f
  rw [h] at this
  exact List.mapM_except_error this.symm

/-- A translation succeeds when every key's callback does. -/
theorem Descriptor.translatePk_isOk {f : P → Except ε Q} {d : Descriptor P}
    (h : ∀ k ∈ d.keys, ∃ q, f k = .ok q) : ∃ d', d.translatePk f = .ok d' := by
  cases hd : d.translatePk f with
  | ok d' => exact ⟨d', rfl⟩
  | error e =>
    obtain ⟨k, hk, he⟩ := translatePk_error hd
    obtain ⟨q, hq⟩ := h k hk
    rw [hq] at he
    nomatch he

/-! ## Queries -/

/-- `DescriptorType`. -/
inductive DescriptorType where
  | bare
  | sh
  | pkh
  | wpkh
  | wsh
  | shWsh
  | shWpkh
  | shSortedMulti
  | wshSortedMulti
  | shWshSortedMulti
  | tr
deriving DecidableEq, Repr

/-- `Descriptor::desc_type`. -/
def Descriptor.descType : Descriptor P → DescriptorType
  | .bare _ => .bare
  | .pkh _ => .pkh
  | .wpkh _ => .wpkh
  | .sh (.wsh (.sortedMulti _ _)) => .shWshSortedMulti
  | .sh (.wsh (.ms _)) => .shWsh
  | .sh (.wpkh _) => .shWpkh
  | .sh (.sortedMulti _ _) => .shSortedMulti
  | .sh (.ms _) => .sh
  | .wsh (.sortedMulti _ _) => .wshSortedMulti
  | .wsh (.ms _) => .wsh
  | .tr _ _ => .tr

@[simp] theorem Descriptor.descType_map (g : P → Q) (d : Descriptor P) :
    (d.map g).descType = d.descType := by
  rcases d with _ | _ | _ | ((_ | _) | _ | _ | _) | (_ | _) | _ <;> rfl

/-- A translation that succeeds keeps the shape, and so the type, of the descriptor. -/
theorem Descriptor.descType_translatePk {f : P → Except ε Q} {d : Descriptor P}
    {d' : Descriptor Q} (h : d.translatePk f = .ok d') : d'.descType = d.descType := by
  rcases d with _ | _ | _ | ((_ | _) | _ | _ | _) | (_ | _) | ⟨_, _ | _⟩ <;>
    simp only [translatePk, ShInner.translatePk, WshInner.translatePk, Except.map_eq_ok,
      Except.bind_eq_ok, bind_pure_comp, pure_bind] at h <;>
    casesm* ∃ _, _, _ ∧ _ <;> subst_vars <;> rfl

/-- `Descriptor::has_wildcard`. -/
def Descriptor.hasWildcard (d : ExtendedDescriptor) : Bool :=
  d.forAnyKey DescriptorPublicKey.hasWildcard

/-- `Descriptor::is_multipath`. -/
def Descriptor.isMultipath (d : ExtendedDescriptor) : Bool :=
  d.forAnyKey DescriptorPublicKey.isMultipath

/-- `Descriptor::at_derivation_index`: every key at `index`. The translation cannot fail
outside the callback, so the `expect_translator_err` of the source never panics. -/
def Descriptor.atDerivationIndex (d : ExtendedDescriptor) (index : Nat) :
    Except ConversionError DerivedDescriptor :=
  d.translatePk (DescriptorPublicKey.atDerivationIndex index)

/-- A key without wildcard derives to the same key at every index. -/
theorem DescriptorPublicKey.atDerivationIndex_of_hasWildcard {k : DescriptorPublicKey}
    (hk : k.hasWildcard = false) (i j : Nat) : k.atDerivationIndex i = k.atDerivationIndex j := by
  cases k with
  | xPub x =>
    have hw : x.wildcard = .none := by simpa [hasWildcard] using hk
    simp only [atDerivationIndex, DescriptorXKey.pathAt, hw]
  | _ => rfl

/-- A descriptor without wildcard derives to the same descriptor at every index. -/
theorem Descriptor.atDerivationIndex_of_hasWildcard {d : ExtendedDescriptor}
    (hd : d.hasWildcard = false) (i j : Nat) : d.atDerivationIndex i = d.atDerivationIndex j :=
  d.translatePk_congr fun k hk => DescriptorPublicKey.atDerivationIndex_of_hasWildcard
    (Bool.eq_false_iff.mpr (List.any_eq_false.mp hd k hk)) i j

/-! ## What the model takes from `miniscript` -/

/-- `miniscript::Error`: the variants the wallet creates or matches on, and the message of
any other. -/
inductive MiniscriptError where
  | badDescriptor (message : String)
  | trNoScriptCode
  | other (message : String)
deriving DecidableEq, Repr

/-- `ScriptBuf`. -/
structure ScriptBuf where
  bytes : List UInt8
deriving DecidableEq, Repr

/-- The parts of `miniscript` that read more of a descriptor than its keys, taken as given:
the parser, the sanity check (duplicate keys, malformed thresholds and the like) and script
compilation. -/
structure Grammar where
  /-- `Descriptor::parse_descriptor`. -/
  parseDescriptor : String → Except MiniscriptError (ExtendedDescriptor × KeyMap)
  /-- `Descriptor::sanity_check`. -/
  sanityCheck : ExtendedDescriptor → Except MiniscriptError Unit
  /-- `Descriptor::script_pubkey`. -/
  scriptPubkey : DerivedDescriptor → ScriptBuf
  /-- The script under a `sh` or `wsh` wrapper (`inner_script`). -/
  innerScript : DerivedDescriptor → ScriptBuf

/-- A grammar that parses nothing, accepts every descriptor and compiles every one to the
empty script. It runs the model on concrete descriptors; no general theorem assumes anything
of the grammar. -/
def Grammar.sample : Grammar :=
  ⟨fun _ => .error (.other "unparsed"), fun _ => .ok (), fun _ => ⟨[]⟩, fun _ => ⟨[]⟩⟩

/-- `Descriptor::explicit_script`: a taproot descriptor has none. -/
def Descriptor.explicitScript (g : Grammar) (d : DerivedDescriptor) :
    Except MiniscriptError ScriptBuf :=
  match d with
  | .tr _ _ => .error .trNoScriptCode
  | .sh _ | .wsh _ => .ok (g.innerScript d)
  | _ => .ok (g.scriptPubkey d)

theorem Descriptor.explicitScript_ok (g : Grammar) {d : DerivedDescriptor}
    (h : d.descType ≠ .tr) : ∃ s, d.explicitScript g = .ok s := by
  rcases d with _ | _ | _ | ((_ | _) | _ | _ | _) | (_ | _) | _ <;>
    first | exact absurd rfl h | exact ⟨_, rfl⟩

end BdkWallet
