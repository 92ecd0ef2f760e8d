import ChainGenesis.Proofs.Success
import Mathlib.Data.List.Forall2
import Mathlib.Data.List.Perm.Basic

/-!
# Lists of steps

A list is read item by item, and so is an object. What happens if one item is another, or if the
items come in another order, is said here once: a run that succeeds still does, and what comes
out differs no more than the steps do.
-/

namespace ChainGenesis

variable {ε α β σ : Type}

/-! ## Every item by itself -/

theorem mapM_cons_eq_ok {f : α → Except ε β} {x : α} {xs : List α} {ys : List β} :
    (x :: xs).mapM f = .ok ys ↔ ∃ y rest, f x = .ok y ∧ xs.mapM f = .ok rest ∧ ys = y :: rest := by
  rw [List.mapM_cons]
  constructor
  · intro h
    obtain ⟨y, hy, h⟩ := bind_eq_ok.mp h
    obtain ⟨rest, hrest, h⟩ := bind_eq_ok.mp h
    injection h with h
    exact ⟨y, rest, hy, hrest, h.symm⟩
  · rintro ⟨y, rest, hy, hrest, rfl⟩
    exact bind_eq_ok.mpr ⟨y, hy, bind_eq_ok.mpr ⟨rest, hrest, rfl⟩⟩

/-- Every result is that of an item. -/
theorem exists_of_mem_mapM {f : α → Except ε β} {xs : List α} {ys : List β}
    (h : xs.mapM f = .ok ys) {y : β} (hmem : y ∈ ys) : ∃ x ∈ xs, f x = .ok y := by
  induction xs generalizing ys with
  | nil =>
      injection h with h
      rw [← h] at hmem
      exact absurd hmem (by simp)
  | cons x xs ih =>
      obtain ⟨z, rest, hz, hrest, rfl⟩ := mapM_cons_eq_ok.mp h
      rcases List.mem_cons.mp hmem with rfl | hmem
      · exact ⟨x, List.mem_cons_self, hz⟩
      · obtain ⟨found, hfound, heq⟩ := ih hrest hmem
        exact ⟨found, List.mem_cons_of_mem _ hfound, heq⟩

/-- One list of items after another gives its results after those of the other. -/
theorem mapM_append_eq_ok {f : α → Except ε β} {xs others : List α} {ys rest : List β}
    (h : xs.mapM f = .ok ys) (hothers : others.mapM f = .ok rest) :
    (xs ++ others).mapM f = .ok (ys ++ rest) := by
  rw [List.mapM_append]
  exact bind_eq_ok.mpr ⟨ys, h, bind_eq_ok.mpr ⟨rest, hothers, rfl⟩⟩

/-- There are as many results as items. -/
theorem length_of_mapM {f : α → Except ε β} {xs : List α} {ys : List β}
    (h : xs.mapM f = .ok ys) : ys.length = xs.length := by
  induction xs generalizing ys with
  | nil =>
      injection h with h
      subst h
      rfl
  | cons x xs ih =>
      obtain ⟨y, rest, _, hrest, rfl⟩ := mapM_cons_eq_ok.mp h
      rw [List.length_cons, List.length_cons, ih hrest]

/-- One item in the place of another changes one result. -/
theorem mapM_replace {R : β → β → Prop} (hrefl : ∀ z, R z z) {f : α → Except ε β} {x y : α}
    (h : ∀ z, f x = .ok z → ∃ z', f y = .ok z' ∧ R z z') {front back : List α} {zs : List β}
    (hall : (front ++ x :: back).mapM f = .ok zs) :
    ∃ zs', (front ++ y :: back).mapM f = .ok zs' ∧ List.Forall₂ R zs zs' := by
  induction front generalizing zs with
  | nil =>
      obtain ⟨z, rest, hz, hrest, rfl⟩ := mapM_cons_eq_ok.mp hall
      obtain ⟨z', hz', hR⟩ := h z hz
      exact ⟨z' :: rest, mapM_cons_eq_ok.mpr ⟨z', rest, hz', hrest, rfl⟩,
        .cons hR (List.forall₂_same.mpr fun z _ => hrefl z)⟩
  | cons first front ih =>
      obtain ⟨z, rest, hz, hrest, rfl⟩ := mapM_cons_eq_ok.mp hall
      obtain ⟨rest', hrest', hR⟩ := ih hrest
      exact ⟨z :: rest', mapM_cons_eq_ok.mpr ⟨z, rest', hz, hrest', rfl⟩, .cons (hrefl z) hR⟩

/-- Items that are read alike can stand for one another. -/
theorem mapM_replace_eq {f : α → Except ε β} {x y : α} (h : ∀ z, f x = .ok z → f y = .ok z)
    {front back : List α} {zs : List β} (hall : (front ++ x :: back).mapM f = .ok zs) :
    (front ++ y :: back).mapM f = .ok zs := by
  obtain ⟨zs', hzs', hR⟩ := mapM_replace Eq.refl (fun z hz => ⟨z, h z hz, rfl⟩) hall
  rw [List.forall₂_eq_eq_eq] at hR
  exact hR ▸ hzs'

/-- In another order there are the same results in that order. -/
theorem mapM_perm {f : α → Except ε β} {xs ys : List α} (hperm : xs.Perm ys) {zs : List β}
    (h : xs.mapM f = .ok zs) : ∃ zs', ys.mapM f = .ok zs' ∧ zs.Perm zs' := by
  induction hperm generalizing zs with
  | nil => exact ⟨zs, h, .refl zs⟩
  | cons x _ ih =>
      obtain ⟨z, rest, hz, hrest, rfl⟩ := mapM_cons_eq_ok.mp h
      obtain ⟨rest', hrest', hp⟩ := ih hrest
      exact ⟨z :: rest', mapM_cons_eq_ok.mpr ⟨z, rest', hz, hrest', rfl⟩, hp.cons z⟩
  | swap x y xs =>
      obtain ⟨z, _, hz, hothers, rfl⟩ := mapM_cons_eq_ok.mp h
      obtain ⟨w, rest, hw, hrest, rfl⟩ := mapM_cons_eq_ok.mp hothers
      exact ⟨w :: z :: rest, mapM_cons_eq_ok.mpr ⟨w, z :: rest, hw,
        mapM_cons_eq_ok.mpr ⟨z, rest, hz, hrest, rfl⟩, rfl⟩, .swap w z rest⟩
  | trans _ _ ih ih' =>
      obtain ⟨zs', hzs', hp⟩ := ih h
      obtain ⟨zs'', hzs'', hp'⟩ := ih' hzs'
      exact ⟨zs'', hzs'', hp.trans hp'⟩

/-! ## Every item after the others -/

theorem foldlM_cons_eq_ok {f : σ → α → Except ε σ} {s t : σ} {x : α} {xs : List α} :
    (x :: xs).foldlM f s = .ok t ↔ ∃ middle, f s x = .ok middle ∧ xs.foldlM f middle = .ok t := by
  rw [List.foldlM_cons, bind_eq_ok]

/-- States that differ no more than each step lets them differ no more after all steps. -/
theorem foldlM_rel {R : σ → σ → Prop} {f : σ → α → Except ε σ} {xs : List α}
    (hstep : ∀ x ∈ xs, ∀ s s' t, R s s' → f s x = .ok t → ∃ t', f s' x = .ok t' ∧ R t t')
    {s s' t : σ} (hs : R s s') (h : xs.foldlM f s = .ok t) :
    ∃ t', xs.foldlM f s' = .ok t' ∧ R t t' := by
  induction xs generalizing s s' with
  | nil =>
      injection h with h
      exact ⟨s', rfl, h ▸ hs⟩
  | cons x xs ih =>
      obtain ⟨middle, hmiddle, h⟩ := foldlM_cons_eq_ok.mp h
      rw [List.forall_mem_cons] at hstep
      obtain ⟨middle', hmiddle', hR⟩ := hstep.1 s s' middle hs hmiddle
      obtain ⟨t', ht', hR⟩ := ih hstep.2 hR h
      exact ⟨t', foldlM_cons_eq_ok.mpr ⟨middle', hmiddle', ht'⟩, hR⟩

/-- Two items of which it does not matter which is first. -/
def Commutes (f : σ → α → Except ε σ) (x y : α) : Prop :=
  ∀ s middle t, f s x = .ok middle → f middle y = .ok t →
    ∃ middle', f s y = .ok middle' ∧ f middle' x = .ok t

/-- If no two items mind which is first, the order of all of them does not matter. -/
theorem foldlM_perm {R : α → α → Prop} (hsymm : ∀ {x y}, R x y → R y x)
    {f : σ → α → Except ε σ} (hcommutes : ∀ x y, R x y → Commutes f x y) {xs ys : List α}
    (hperm : xs.Perm ys) (hpairs : xs.Pairwise R) {s t : σ} (h : xs.foldlM f s = .ok t) :
    ys.foldlM f s = .ok t := by
  induction hperm generalizing s with
  | nil => exact h
  | cons x _ ih =>
      obtain ⟨middle, hmiddle, h⟩ := foldlM_cons_eq_ok.mp h
      exact foldlM_cons_eq_ok.mpr ⟨middle, hmiddle, ih (List.pairwise_cons.mp hpairs).2 h⟩
  | swap x y xs =>
      obtain ⟨first, hfirst, h⟩ := foldlM_cons_eq_ok.mp h
      obtain ⟨second, hsecond, h⟩ := foldlM_cons_eq_ok.mp h
      have hR := (List.pairwise_cons.mp hpairs).1 x List.mem_cons_self
      obtain ⟨first', hfirst', hsecond'⟩ := hcommutes y x hR s first second hfirst hsecond
      exact foldlM_cons_eq_ok.mpr ⟨first', hfirst', foldlM_cons_eq_ok.mpr ⟨second, hsecond', h⟩⟩
  | trans hxy _ ih ih' => exact ih' (hxy.pairwise hpairs hsymm) (ih hpairs h)

end ChainGenesis
