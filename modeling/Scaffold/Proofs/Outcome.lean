import Mathlib.Data.List.Forall2

/-!
# Outcomes

When a computation that may fail succeeds or fails, in terms of its parts.
-/

namespace Except

variable {ε ε' α β γ : Type}

theorem map_eq_ok_iff {x : Except ε α} {f : α → β} {b : β} :
    x.map f = .ok b ↔ ∃ a, x = .ok a ∧ f a = b := by
  cases x <;> simp [Except.map]

theorem map_eq_error_iff {x : Except ε α} {f : α → β} {e : ε} :
    x.map f = .error e ↔ x = .error e := by
  cases x <;> simp [Except.map]

theorem map_map_eq_ok_some_iff {x : Except ε (Option α)} {f : α → β} {b : β} :
    x.map (Option.map f) = .ok (some b) ↔ ∃ a, x = .ok (some a) ∧ f a = b := by
  cases x with
  | error e => simp [Except.map]
  | ok o => cases o <;> simp [Except.map]

theorem mapError_eq_ok_iff {x : Except ε α} {f : ε → ε'} {a : α} :
    x.mapError f = .ok a ↔ x = .ok a := by
  cases x with
  | error e => exact ⟨nofun, nofun⟩
  | ok b =>
    exact ⟨fun h => congrArg Except.ok (Except.ok.inj h),
      fun h => congrArg Except.ok (Except.ok.inj h)⟩

theorem mapError_eq_error_iff {x : Except ε α} {f : ε → ε'} {e : ε'} :
    x.mapError f = .error e ↔ ∃ e', x = .error e' ∧ f e' = e := by
  cases x with
  | error e' =>
    exact ⟨fun h => ⟨e', rfl, Except.error.inj h⟩,
      fun ⟨_, h, he⟩ => congrArg Except.error (Except.error.inj h ▸ he)⟩
  | ok b => exact ⟨nofun, nofun⟩

theorem bind_eq_ok_iff {x : Except ε α} {f : α → Except ε β} {b : β} :
    x >>= f = .ok b ↔ ∃ a, x = .ok a ∧ f a = .ok b := by
  cases x <;> simp [bind, Except.bind]

theorem bind_eq_error_iff {x : Except ε α} {f : α → Except ε β} {e : ε} :
    x >>= f = .error e ↔ x = .error e ∨ ∃ a, x = .ok a ∧ f a = .error e := by
  cases x <;> simp [bind, Except.bind]

/-- A computation for each item of a list succeeds where it does so for every item. -/
theorem mapM_eq_ok_iff {f : α → Except ε β} {xs : List α} {ys : List β} :
    xs.mapM f = .ok ys ↔ List.Forall₂ (fun x y => f x = .ok y) xs ys := by
  induction xs generalizing ys with
  | nil =>
    rw [List.mapM_nil, List.forall₂_nil_left_iff]
    exact ⟨fun h => (Except.ok.inj h).symm, fun h => congrArg _ h.symm⟩
  | cons x xs ih =>
    rw [List.mapM_cons, bind_eq_ok_iff, List.forall₂_cons_left_iff]
    constructor
    · rintro ⟨y, hy, h⟩
      obtain ⟨ys', hys, h⟩ := bind_eq_ok_iff.1 h
      exact ⟨y, ys', hy, ih.1 hys, (Except.ok.inj h).symm⟩
    · rintro ⟨y, ys', hy, hys, rfl⟩
      exact ⟨y, hy, bind_eq_ok_iff.2 ⟨ys', ih.2 hys, rfl⟩⟩

theorem mapM_append_cons_eq_ok_iff {f : α → Except ε β} {xs ys : List α} {x : α} {zs : List β} :
    (xs ++ x :: ys).mapM f = .ok zs ↔ ∃ as b bs, xs.mapM f = .ok as ∧ f x = .ok b ∧
      ys.mapM f = .ok bs ∧ zs = as ++ b :: bs := by
  rw [List.mapM_append, List.mapM_cons]
  constructor
  · intro h
    obtain ⟨as, has, h⟩ := bind_eq_ok_iff.1 h
    obtain ⟨more, hmore, h⟩ := bind_eq_ok_iff.1 h
    obtain ⟨b, hb, hmore⟩ := bind_eq_ok_iff.1 hmore
    obtain ⟨bs, hbs, hmore⟩ := bind_eq_ok_iff.1 hmore
    cases hmore
    exact ⟨as, b, bs, has, hb, hbs, (Except.ok.inj h).symm⟩
  · rintro ⟨as, b, bs, has, hb, hbs, rfl⟩
    rw [has, hb, hbs]
    rfl

/-- The results that are kept of each computation, if they all succeed. -/
theorem mapM_filterMap {f : α → Except ε β} {g : β → Option γ} {f' : α → Except ε γ} {xs : List α}
    (h : ∀ x ∈ xs, (f x).map g = (f' x).map some) :
    (xs.mapM f).map (List.filterMap g) = xs.mapM f' := by
  induction xs with
  | nil => rfl
  | cons x xs ih =>
    obtain ⟨hx, hxs⟩ := List.forall_mem_cons.1 h
    rw [List.mapM_cons, List.mapM_cons, ← ih hxs]
    cases hf : f x with
    | error e =>
      rw [hf] at hx
      rw [map_eq_error_iff.1 hx.symm]
      rfl
    | ok b =>
      rw [hf] at hx
      obtain ⟨c, hc, hb⟩ := map_eq_ok_iff.1 hx.symm
      rw [hc]
      cases xs.mapM f with
      | error e => rfl
      | ok bs => exact congrArg Except.ok (List.filterMap_cons_some hb.symm)

/-- Both computations fail in the same way, or succeed with values that `R` relates. -/
def Related (R : α → β → Prop) : Except ε α → Except ε β → Prop
  | .ok a, .ok b => R a b
  | .error e, .error e' => e = e'
  | _, _ => False

namespace Related

variable {δ : Type} {R : α → β → Prop} {S : γ → δ → Prop} {x : Except ε α} {y : Except ε β}

theorem map {f : α → γ} {g : β → δ} (h : Related R x y) (hfg : ∀ a b, R a b → S (f a) (g b)) :
    Related S (x.map f) (y.map g) := by
  cases x with
  | error e => cases y with
    | error e' => exact h
    | ok b => exact h
  | ok a => cases y with
    | error e' => exact h
    | ok b => exact hfg a b h

theorem bind {f : α → Except ε γ} {g : β → Except ε δ} (h : Related R x y)
    (hfg : ∀ a b, x = .ok a → R a b → Related S (f a) (g b)) :
    Related S (x.bind f) (y.bind g) := by
  cases x with
  | error e => cases y with
    | error e' => exact h
    | ok b => exact h.elim
  | ok a => cases y with
    | error e' => exact h.elim
    | ok b => exact hfg a b rfl h

theorem exists_ok {a : α} (h : Related R x y) (hx : x = .ok a) : ∃ b, y = .ok b ∧ R a b := by
  subst hx
  cases y with
  | error e => exact h.elim
  | ok b => exact ⟨b, rfl, h⟩

end Related

theorem eq_ok_of_toOption {x : Except ε α} {a : α} (h : x.toOption = some a) : x = .ok a := by
  cases x with
  | error e => cases h
  | ok b => exact congrArg _ (Option.some.inj h)

end Except

/-- A related value stays related when it is mapped. -/
theorem Option.Rel.map_of {α β γ δ : Type} {R : α → β → Prop} {S : γ → δ → Prop} {o : Option α}
    {o' : Option β} {f : α → γ} {g : β → δ} (h : Option.Rel R o o')
    (hfg : ∀ a b, R a b → S (f a) (g b)) : Option.Rel S (o.map f) (o'.map g) := by
  cases h with
  | none => exact .none
  | some h => exact .some (hfg _ _ h)
