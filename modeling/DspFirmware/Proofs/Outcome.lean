import Mathlib.Data.List.Forall2

/-!
What a computation with faults has done when it succeeds: each of its steps has succeeded, from the
first to the last.
-/

namespace DspFirmware.Outcome

/-- A sequence succeeds when both parts do. -/
theorem bind_eq_ok {x : Except ε α} {next : α → Except ε β} {b : β} :
    (x >>= next) = .ok b ↔ ∃ a, x = .ok a ∧ next a = .ok b := by
  cases x with
  | error e => simp [bind, Except.bind]
  | ok a => simp [bind, Except.bind]

/-- A sequence behind a check succeeds when what is checked holds and the sequence succeeds. -/
theorem guard_eq_ok {c : Prop} [Decidable c] {fault : ε} {x : Except ε α} {refused : β → Except ε α}
    {a : α} : (if c then x else throw fault >>= refused) = .ok a ↔ c ∧ x = .ok a := by
  by_cases h : c
  · simp [h]
  · simp [h, throw, throwThe, MonadExceptOf.throw, bind, Except.bind]

theorem refuse_eq_ok {c : Prop} [Decidable c] {fault : ε} {x : Except ε α} {refused : β → Except ε α}
    {a : α} : (if c then throw fault >>= refused else x) = .ok a ↔ ¬ c ∧ x = .ok a := by
  rw [← ite_not, guard_eq_ok]

theorem pure_eq_ok {a b : α} : (pure a : Except ε α) = .ok b ↔ b = a := by
  simp [pure, Except.pure, eq_comm]

theorem throw_ne_ok {fault : ε} {a : α} : (throw fault : Except ε α) ≠ .ok a := nofun

/-- What is made of an answer adds no fault. -/
theorem bind_pure_eq_error {x : Except ε α} {f : α → β} {e : ε} :
    (x >>= fun a => pure (f a)) = .error e ↔ x = .error e := by
  cases x with
  | error other => simp [bind, Except.bind]
  | ok a => simp [bind, Except.bind, pure, Except.pure]

/-- Errors that are put otherwise leave the answer as it is. -/
theorem mapError_eq_ok_iff {f : ε → δ} {x : Except ε α} {a : α} :
    x.mapError f = .ok a ↔ x = .ok a := by
  cases x <;> simp [Except.mapError]

/-- A traversal succeeds when it does so at every element. -/
theorem mapM_eq_ok_iff {f : α → Except ε β} {xs : List α} {ys : List β} :
    xs.mapM f = .ok ys ↔ List.Forall₂ (fun x y => f x = .ok y) xs ys := by
  induction xs generalizing ys with
  | nil =>
      rw [List.mapM_nil, List.forall₂_nil_left_iff]
      exact ⟨fun h => (Except.ok.inj h).symm, fun h => h ▸ rfl⟩
  | cons x rest ih =>
      rw [List.mapM_cons, List.forall₂_cons_left_iff, bind_eq_ok]
      constructor
      · rintro ⟨y, first, h⟩
        obtain ⟨others, later, last⟩ := bind_eq_ok.mp h
        exact ⟨y, others, first, ih.mp later, (Except.ok.inj last).symm⟩
      · rintro ⟨y, others, first, later, rfl⟩
        exact ⟨y, first, bind_eq_ok.mpr ⟨others, ih.mpr later, rfl⟩⟩

/-- A traversal fails with the fault of the first element that has one. -/
theorem mapM_eq_error_iff {f : α → Except ε β} {xs : List α} {e : ε} :
    xs.mapM f = .error e ↔ ∃ front x behind, xs = front ++ x :: behind ∧
      (∀ y ∈ front, ∃ b, f y = .ok b) ∧ f x = .error e := by
  induction xs with
  | nil =>
      rw [List.mapM_nil]
      simp [pure, Except.pure]
  | cons x rest ih =>
      rw [List.mapM_cons]
      cases first : f x with
      | error other =>
          constructor
          · intro failed
            cases failed
            exact ⟨[], x, rest, rfl, nofun, first⟩
          · rintro ⟨_ | ⟨y, front⟩, z, behind, split, sound, failed⟩
            · cases split
              cases first.symm.trans failed
              rfl
            · cases split
              obtain ⟨b, good⟩ := sound _ List.mem_cons_self
              cases first.symm.trans good
      | ok b =>
          change (rest.mapM f >>= fun bs => pure (b :: bs)) = .error e ↔ _
          rw [bind_pure_eq_error, ih]
          constructor
          · rintro ⟨front, z, behind, rfl, sound, failed⟩
            exact ⟨x :: front, z, behind, rfl, List.forall_mem_cons.mpr ⟨⟨b, first⟩, sound⟩, failed⟩
          · rintro ⟨_ | ⟨y, front⟩, z, behind, split, sound, failed⟩
            · cases split
              cases first.symm.trans failed
            · cases split
              exact ⟨front, z, behind, rfl, (List.forall_mem_cons.mp sound).2, failed⟩

/-- A traversal of lists behind each other goes through them one by one. -/
theorem mapM_flatMap {f : β → Except ε γ} {items : α → List β} {xs : List α} :
    (xs.flatMap items).mapM f = do return (← xs.mapM fun x => (items x).mapM f).flatten := by
  induction xs with
  | nil => rfl
  | cons x rest ih =>
      rw [List.flatMap_cons, List.mapM_append, ih, List.mapM_cons]
      cases (items x).mapM f with
      | error e => rfl
      | ok ys => cases rest.mapM fun x => (items x).mapM f <;> rfl

theorem forall₂_eq_map {f : α → β} {xs : List α} {ys : List β} :
    List.Forall₂ (fun x y => y = f x) xs ys ↔ ys = xs.map f := by
  induction xs generalizing ys with
  | nil => simp
  | cons x rest ih =>
      simp [List.forall₂_cons_left_iff, ih]

theorem exists_of_mem_right {R : α → β → Prop} {xs : List α} {ys : List β}
    (h : List.Forall₂ R xs ys) {y : β} (member : y ∈ ys) : ∃ x ∈ xs, R x y := by
  induction h with
  | nil => cases member
  | @cons x first xs rest related _ ih =>
      rcases List.mem_cons.mp member with rfl | later
      · exact ⟨x, List.mem_cons_self, related⟩
      · obtain ⟨other, inside, hR⟩ := ih later
        exact ⟨other, List.mem_cons_of_mem x inside, hR⟩

theorem exists_mapM_eq_ok_iff {f : α → Except ε β} {xs : List α} :
    (∃ ys, xs.mapM f = .ok ys) ↔ ∀ x ∈ xs, ∃ y, f x = .ok y := by
  constructor
  · rintro ⟨ys, done⟩ x member
    obtain ⟨y, _, found⟩ := exists_of_mem_right (mapM_eq_ok_iff.mp done).flip member
    exact ⟨y, found⟩
  · intro sound
    cases done : xs.mapM f with
    | ok ys => exact ⟨ys, rfl⟩
    | error e =>
        obtain ⟨front, x, behind, rfl, _, failed⟩ := mapM_eq_error_iff.mp done
        obtain ⟨y, found⟩ := sound x (by simp)
        cases failed.symm.trans found

end DspFirmware.Outcome
