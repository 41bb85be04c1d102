import Scaffold.Proofs.Project.Registering

/-!
# What registrations report

A piece of work reports what its parts report, one after the other, up to the first error
(`Work.mem_log_bind`, `Work.mem_log_each_append_cons`).

A registration in a hub reports what deciding about the hub reports, apart from what it says about
its own success (`Hub.mem_log_merge`).  Only a hub that looks for claims reports one: when the
resource is put into it, and is claimed in the text before (`Hub.claimed_mem_update_iff`).
-/

namespace Scaffold

namespace Work

variable {ε ε' α β : Type} {d d' : Disk} {rec : LogRecord}

theorem mem_log_bind {m : Work ε α} {f : α → Work ε β} :
    rec ∈ ((m >>= f) d).log ↔ rec ∈ (m d).log ∨
      ∃ x, (m d).result = .ok x ∧ rec ∈ (f x (m d).disk).log := by
  change rec ∈ (andThen m f d).log ↔ _
  rw [andThen]
  cases hr : m d with
  | mk result disk log => cases result <;> simp

/-- After a part that ended well, the next one reports what it reports on the disk it is given. -/
theorem Ends.mem_log_bind {m : Work ε α} {f : α → Work ε β} {x : α} (h : m.Ends d (.ok x) d') :
    rec ∈ ((m >>= f) d).log ↔ rec ∈ (m d).log ∨ rec ∈ (f x d').log := by
  obtain ⟨hx, rfl⟩ := h
  rw [Work.mem_log_bind, hx]
  simp

theorem mem_log_report_bind {rec' : LogRecord} {m : Unit → Work ε α} :
    rec ∈ ((report rec' >>= m) d).log ↔ rec = rec' ∨ rec ∈ (m () d).log := by
  rw [(ends_report rec' d).mem_log_bind]
  exact or_congr_left List.mem_singleton

variable {f : α → Work ε β} {xs : List α}

theorem mem_log_each_cons {x : α} :
    rec ∈ (each f (x :: xs) d).log ↔ rec ∈ (f x d).log ∨
      ∃ y, (f x d).result = .ok y ∧ rec ∈ (each f xs (f x d).disk).log := by
  have hrest : ∀ (y : β) (d : Disk),
      rec ∈ ((each f xs >>= fun ys => pure (y :: ys) : Work ε (List β)) d).log ↔
        rec ∈ (each f xs d).log := by
    intro y d
    rw [mem_log_bind]
    exact or_iff_left fun ⟨_, _, h⟩ => absurd h List.not_mem_nil
  change rec ∈ ((f x >>= fun y => each f xs >>= fun ys => pure (y :: ys)) d).log ↔ _
  simp only [mem_log_bind (m := f x), hrest]

/-- What is reported is reported for some item. -/
theorem exists_of_mem_log_each (h : rec ∈ (each f xs d).log) :
    ∃ x ∈ xs, ∃ d, rec ∈ (f x d).log := by
  induction xs generalizing d with
  | nil => cases h
  | cons x xs ih =>
    rcases mem_log_each_cons.1 h with h | ⟨y, -, h⟩
    · exact ⟨x, List.mem_cons_self, d, h⟩
    · obtain ⟨x', hx', h⟩ := ih h
      exact ⟨x', List.mem_cons_of_mem _ hx', h⟩

/-- What only one item can report is reported if that item reports it, when its turn comes. -/
theorem mem_log_each_append_cons {x : α} {xs' : List α} {ys : List β}
    (h : (each f xs).Ends d (.ok ys) d') (hxs : ∀ x ∈ xs, ∀ d, rec ∉ (f x d).log)
    (hxs' : ∀ x ∈ xs', ∀ d, rec ∉ (f x d).log) :
    rec ∈ (each f (xs ++ x :: xs') d).log ↔ rec ∈ (f x d').log := by
  induction xs generalizing d ys with
  | nil =>
    obtain ⟨-, rfl⟩ := h
    rw [List.nil_append, mem_log_each_cons]
    refine or_iff_left ?_
    rintro ⟨y, -, hlater⟩
    obtain ⟨x', hx', d, hlater⟩ := exists_of_mem_log_each hlater
    exact hxs' x' hx' d hlater
  | cons x₀ xs ih =>
    rw [List.forall_mem_cons] at hxs
    obtain ⟨y, zs, d₁, -, ⟨hy, rfl⟩, hrest⟩ := h.of_each_cons
    rw [List.cons_append, mem_log_each_cons, or_iff_right (hxs.1 d), hy, ← ih hrest hxs.2]
    simp

end Work

namespace Hub

open Work

variable {h k : Hub} {r r' : Resource} {root : Path} {d : Disk} {current : Option Text}
  {rec : LogRecord}

/-! ### Deciding about a hub -/

theorem mem_log_referAll {e : LineEnd} {t : Text} {rules : List ReferenceLine}
    (hrec : rec ∈ (h.referAll r e t rules).2) : ∃ line, rec = h.noPlace line := by
  induction rules generalizing t with
  | nil => cases hrec
  | cons rule rules ih =>
    rcases List.mem_append.1 hrec with hrec | hrec
    · change rec ∈ (h.refer r e t rule).2 at hrec
      unfold refer at hrec
      split at hrec
      · cases hrec
      · dsimp only at hrec
        split at hrec
        · cases hrec
        · exact ⟨_, List.mem_singleton.1 hrec⟩
    · exact ih hrec

/-- A claim is reported where the resource is put into a text in which it is claimed. -/
theorem claimed_mem_update_iff : h.claimed r ∈ (k.update r' current).2 ↔
    k.claimed r' = h.claimed r ∧ (∀ t ∈ current, k.isRegistered r' t = false) ∧
      (current.getD k.skeleton).includes k.marker = true ∧
      k.isClaimed r' (current.getD k.skeleton) = true := by
  -- the reports begin with different words
  have hregistered : k.alreadyRegistered r' ≠ h.claimed r := by
    intro heq
    cases congrArg LogRecord.level heq
  have hmissing : k.markerMissing ≠ h.claimed r := by
    intro heq
    cases (List.cons.inj (congrArg LogRecord.message heq)).1
  have hplace : ∀ line, k.noPlace line ≠ h.claimed r := by
    intro line heq
    cases (List.cons.inj (congrArg LogRecord.message heq)).1
  have hnew : current.any (k.isRegistered r') = false ↔
      ∀ t ∈ current, k.isRegistered r' t = false := by
    cases current <;> simp
  rw [update, ← hnew]
  cases hreg : current.any (k.isRegistered r') with
  | true => simp [hregistered.symm]
  | false =>
    cases hmark : (current.getD k.skeleton).includes k.marker with
    | false => simp [hmark, hmissing.symm]
    | true =>
      have hrefer : h.claimed r ∉ (k.register r' (current.getD k.skeleton)).2 := by
        intro hrec
        obtain ⟨line, hline⟩ := mem_log_referAll hrec
        exact hplace line hline.symm
      cases hclaimed : k.isClaimed r' (current.getD k.skeleton) with
      | false => simp [hmark, hclaimed, hrefer]
      | true => simp only [hmark, hclaimed, Bool.not_true, Bool.false_eq_true, if_false, if_true,
          List.singleton_append, List.mem_cons, hrefer, or_false, and_true, eq_comm]

/-! ### Registering in a hub -/

/-- Reading a hub reports nothing. -/
theorem not_mem_log_current? (path : Path) : rec ∉ (current? path d).log := by
  rw [current?, mem_log_bind]
  rintro (hrec | ⟨there, -, hrec⟩)
  · cases hrec
  · split at hrec
    · rcases mem_log_bind.1 hrec with hrec | ⟨_, -, hrec⟩
      · cases hrec
      · cases hrec
    · cases hrec

/-- A warning of a registration arises where it decides about the text of the hub. -/
theorem mem_log_mergeAt (hlevel : rec.level = .warning) : rec ∈ (h.mergeAt r root d).log ↔
    h.applies r = true ∧ ∃ current, (current? (h.pathIn root) d).result = .ok current ∧
      rec ∈ (h.update r current).2 := by
  have hinfo : ∀ message, rec ≠ wiring .info message := by
    rintro message rfl
    cases hlevel
  rw [mergeAt]
  cases happ : h.applies r with
  | false =>
    constructor
    · intro hrec
      cases hrec
    · rintro ⟨hfalse, -⟩
      cases hfalse
  | true =>
    simp only [Bool.not_true, Bool.false_eq_true, if_false, true_and]
    rw [mem_log_bind, ← pathIn, or_iff_right (not_mem_log_current? _)]
    refine exists_congr fun current => and_congr_right fun _ => ?_
    rw [(ends_reportAll _ _).mem_log_bind]
    refine or_iff_left fun hrec => ?_
    -- the rest speaks of success, which is no warning
    cases hd : (h.update r current).1 with
    | registered =>
      rw [hd] at hrec
      cases hrec
    | noMarker =>
      rw [hd] at hrec
      cases hrec
    | write t =>
      rw [hd] at hrec
      rcases mem_log_bind.1 hrec with hrec | ⟨_, -, hrec⟩
      · cases hrec
      · split at hrec
        · exact (mem_log_report_bind.1 hrec).elim (hinfo _) List.not_mem_nil
        · exact (mem_log_report_bind.1 hrec).elim (hinfo _) List.not_mem_nil

/-- A warning of a registration arises where it decides about the text of the hub. -/
theorem mem_log_merge (hlevel : rec.level = .warning) : rec ∈ (Hub.merge r root h d).log ↔
    h.applies r = true ∧ ∃ current, (current? (h.pathIn root) d).result = .ok current ∧
      rec ∈ (h.update r current).2 := by
  have herror : ∀ message, rec ≠ wiring .error message := by
    rintro message rfl
    cases hlevel
  rw [← mem_log_mergeAt hlevel, Hub.merge, mem_log_bind]
  refine or_iff_left ?_
  rintro ⟨x, -, hrec⟩
  cases x with
  | ok status => cases hrec
  | error e =>
    dsimp only at hrec
    split at hrec
    · exact (mem_log_report_bind.1 hrec).elim (herror _) List.not_mem_nil
    · cases hrec

end Hub

end Scaffold
