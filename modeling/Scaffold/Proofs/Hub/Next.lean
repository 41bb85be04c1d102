import Scaffold.Hub.Basic

/-!
# The next text of a hub

`Hub.written?` is the text that a registration writes, given the text of the hub, if it writes one;
`Hub.next` is the text of the hub afterwards.
-/

namespace Scaffold

namespace Hub

/-- The text that a registration writes, if it writes one. -/
def written? (h : Hub) (r : Resource) (current : Option Text) : Option Text :=
  if h.applies r then
    match (h.update r current).1 with
    | .write t => some t
    | _ => none
  else none

/-- The text of a hub after a registration. -/
def next (h : Hub) (r : Resource) (current : Option Text) : Option Text :=
  (h.written? r current).or current

variable {h : Hub} {r : Resource} {current : Option Text}

theorem next_of_not_applies (ha : h.applies r = false) : h.next r current = current := by
  rw [next, written?, ha]
  rfl

/-- A resource that is registered already is not written. -/
theorem written?_of_isRegistered {t : Text} (hr : h.isRegistered r t = true) :
    h.written? r (some t) = none := by
  rw [written?]
  split
  · simp [update, hr]
  · rfl

/-- A resource that is registered already changes nothing. -/
theorem next_of_isRegistered {t : Text} (hr : h.isRegistered r t = true) :
    h.next r (some t) = some t := by
  rw [next, written?_of_isRegistered hr, Option.none_or]

/-- A resource that is not registered yet is put into the hub, or into its skeleton. -/
theorem next_eq_register (ha : h.applies r = true)
    (hm : (current.getD h.skeleton).includes h.marker = true)
    (hr : ∀ t ∈ current, h.isRegistered r t = false) :
    h.next r current = some (h.register r (current.getD h.skeleton)).1 := by
  have hreg : current.any (h.isRegistered r) = false := by
    cases current with
    | none => rfl
    | some t => exact hr t rfl
  have hwritten : h.written? r current = some (h.register r (current.getD h.skeleton)).1 := by
    rw [written?, if_pos ha, update, hreg]
    simp [hm]
  rw [next, hwritten, Option.some_or]

/-- What a registration writes is the hub, or its skeleton, with the resource put into it. -/
theorem eq_register_of_written? {t : Text} (hw : h.written? r current = some t) :
    h.applies r = true ∧ (current.getD h.skeleton).includes h.marker = true ∧
      (∀ t ∈ current, h.isRegistered r t = false) ∧
      t = (h.register r (current.getD h.skeleton)).1 := by
  rw [written?] at hw
  split at hw
  · rename_i ha
    refine ⟨ha, ?_⟩
    rw [update] at hw
    by_cases hreg : current.any (h.isRegistered r) = true
    · simp [hreg] at hw
    · by_cases hmark : (current.getD h.skeleton).includes h.marker = true
      · simp only [hreg, hmark] at hw
        refine ⟨hmark, fun t ht => ?_, (Option.some.inj hw).symm⟩
        rw [Option.mem_def.1 ht] at hreg
        simpa using hreg
      · simp [hreg, hmark] at hw
  · cases hw

end Hub

end Scaffold
