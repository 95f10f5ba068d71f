import Mathlib.Algebra.BigOperators.Group.List.Basic
import Mathlib.Algebra.GroupWithZero.Nat
import Mathlib.Data.List.Forall2
import Mathlib.Data.List.Nodup
import Mathlib.Data.Prod.Basic

/-! Matching the elements of a list with different partners. What keeps the partners apart is
that every partner belongs to one key and no key occurs twice. -/
namespace Matching

variable {α β ι κ : Type*}

/-- A list has a list of partners when each of its elements has a partner. -/
theorem exists_forall₂ {R : α → β → Prop} {l : List α} :
    (∃ bs, List.Forall₂ R l bs) ↔ ∀ a ∈ l, ∃ b, R a b := by
  induction l with
  | nil => simp
  | cons a l ih =>
      rw [List.forall_mem_cons, ← ih]
      constructor
      · rintro ⟨_, all⟩
        cases all with
        | cons related rest => exact ⟨⟨_, related⟩, _, rest⟩
      · rintro ⟨⟨b, related⟩, bs, rest⟩
        exact ⟨b :: bs, .cons related rest⟩

theorem exists_distinct {R : α → β → Prop} {key : α → κ} {owner : β → Option κ} {l : List α}
    (nodup : (l.map key).Nodup) (each : ∀ a ∈ l, ∃ b, owner b = some (key a) ∧ R a b) :
    ∃ bs, bs.Nodup ∧ List.Forall₂ R l bs := by
  obtain ⟨bs, all⟩ := exists_forall₂.mpr each
  refine ⟨bs, ?_, all.imp fun _ _ h => h.2⟩
  have owners : List.Forall₂ (· = ·) (l.map fun a => some (key a)) (bs.map owner) := by
    rw [List.forall₂_map_left_iff, List.forall₂_map_right_iff]
    exact all.imp fun _ _ h => h.1.symm
  rw [List.forall₂_eq_eq_eq] at owners
  have keys : (l.map fun a => some (key a)) = (l.map key).map some := by
    rw [List.map_map]
    rfl
  refine List.Nodup.of_map owner ?_
  rw [← owners, keys]
  exact nodup.map fun _ _ => Option.some.inj

theorem forall₂_getElem? {R : α → β → Prop} {l : List α} {l' : List β} (all : List.Forall₂ R l l')
    {k : ℕ} {a : α} {b : β} (left : l[k]? = some a) (right : l'[k]? = some b) : R a b := by
  obtain ⟨_, rfl⟩ := List.getElem?_eq_some_iff.mp left
  obtain ⟨_, rfl⟩ := List.getElem?_eq_some_iff.mp right
  exact (List.forall₂_iff_get.mp all).2 k _ _

theorem exists_mem_of_forall₂ {R : α → β → Prop} {l : List α} {l' : List β}
    (all : List.Forall₂ R l l') {a : α} (member : a ∈ l) : ∃ b ∈ l', R a b := by
  obtain ⟨k, left⟩ := List.getElem?_of_mem member
  have bound : k < l'.length := all.length_eq ▸ (List.getElem?_eq_some_iff.mp left).1
  have right := List.getElem?_eq_getElem bound
  exact ⟨_, List.mem_of_getElem? right, forall₂_getElem? all left right⟩

/-! ## Groups of keyed elements -/

/-- The elements of all groups; the key of an element is extended by the position of its group. -/
def positioned (groups : List (List (ι × α))) : List ((ℕ × ι) × α) :=
  groups.zipIdx.flatMap fun g => g.1.map fun p => ((g.2, p.1), p.2)

theorem mem_positioned {groups : List (List (ι × α))} {e : (ℕ × ι) × α} :
    e ∈ positioned groups ↔ ∃ g, groups[e.1.1]? = some g ∧ (e.1.2, e.2) ∈ g := by
  simp only [positioned, List.mem_flatMap, List.mem_map, List.mem_zipIdx_iff_getElem?]
  constructor
  · rintro ⟨g, here, p, hp, rfl⟩
    exact ⟨g.1, here, hp⟩
  · rintro ⟨g, here, he⟩
    exact ⟨(g, e.1.1), here, _, he, rfl⟩

theorem positioned_map_snd (groups : List (List (ι × α))) :
    (positioned groups).map Prod.snd = groups.flatMap fun g => g.map Prod.snd := by
  have groupwise : groups.zipIdx.map Prod.fst = groups := List.zipIdx_map_fst 0 groups
  conv_rhs => rw [← groupwise]
  simp only [positioned, List.map_flatMap, List.flatMap_map, List.map_map]
  rfl

theorem nodup_positioned {groups : List (List (ι × α))}
    (each : ∀ g ∈ groups, (g.map Prod.fst).Nodup) : ((positioned groups).map Prod.fst).Nodup := by
  rw [positioned, List.map_flatMap, List.nodup_flatMap]
  constructor
  · intro g hg
    have group : g.1 ∈ groups := List.mem_of_getElem? (List.mem_zipIdx_iff_getElem?.mp hg)
    have keys := (each g.1 group).map (Prod.mk_right_injective g.2)
    simpa [List.map_map, Function.comp_def] using keys
  · have positions : (groups.zipIdx.map Prod.snd).Nodup := by
      rw [List.zipIdx_map_snd]
      exact List.nodup_range'
    refine (List.pairwise_map.mp positions).imp ?_
    intro g g' ne key here there
    simp only [List.map_map, List.mem_map, Function.comp_apply] at here there
    obtain ⟨_, -, rfl⟩ := here
    obtain ⟨_, -, eq⟩ := there
    exact ne (Prod.mk.inj eq).1.symm

/-- Replacing one element changes a sum by what the two differ in. -/
theorem sum_map_set (f : α → ℕ) {l : List α} {n : ℕ} {a : α} (here : l[n]? = some a) (b : α) :
    ((l.set n b).map f).sum + f a = (l.map f).sum + f b := by
  obtain ⟨bound, rfl⟩ := List.getElem?_eq_some_iff.mp here
  rw [List.set_eq_take_append_cons_drop, if_pos bound]
  conv_rhs => rw [← List.take_append_drop n l, List.drop_eq_getElem_cons bound]
  simp only [List.map_append, List.map_cons, List.sum_append, List.sum_cons]
  omega

end Matching
