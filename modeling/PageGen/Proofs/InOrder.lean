import Mathlib.Data.List.Forall2
import PageGen.Proofs.Run

/-! Lists whose items are taken one after another, until one of them fails. -/
namespace PageGen

variable {ε α β γ : Type} {f : α → Except ε β} {item : α} {items : List α} {values : List β}
  {cause : ε}

/-- One of the items fails with this cause, and none of those before it fails. -/
def FailsFirst (f : α → Except ε β) (items : List α) (cause : ε) : Prop :=
  ∃ (index : Nat) (_ : index < items.length), f items[index] = .error cause ∧
    ∀ (earlier : Nat) (_ : earlier < index), ∃ value, f items[earlier] = .ok value

theorem not_failsFirst_nil : ¬FailsFirst f [] cause := by
  rintro ⟨index, hIndex, -⟩
  exact absurd hIndex (Nat.not_lt_zero index)

theorem failsFirst_cons : FailsFirst f (item :: items) cause ↔
    f item = .error cause ∨ (∃ value, f item = .ok value) ∧ FailsFirst f items cause := by
  constructor
  · rintro ⟨index, hIndex, hFails, hEarlier⟩
    cases index with
    | zero => exact .inl hFails
    | succ index =>
        refine .inr ⟨hEarlier 0 (Nat.zero_lt_succ index), index, Nat.lt_of_succ_lt_succ hIndex,
          hFails, fun earlier hLess => ?_⟩
        exact hEarlier (earlier + 1) (Nat.succ_lt_succ hLess)
  · rintro (hFails | ⟨hFirst, index, hIndex, hFails, hEarlier⟩)
    · exact ⟨0, Nat.zero_lt_succ _, hFails, fun earlier hLess => absurd hLess (Nat.not_lt_zero _)⟩
    · refine ⟨index + 1, Nat.succ_lt_succ hIndex, hFails, fun earlier hLess => ?_⟩
      cases earlier with
      | zero => exact hFirst
      | succ earlier => exact hEarlier earlier (Nat.lt_of_succ_lt_succ hLess)

/-- What is made of the results has no part in which item fails first. -/
theorem failsFirst_map {g : α → β → γ} :
    FailsFirst (fun item => (f item).map (g item)) items cause ↔ FailsFirst f items cause := by
  simp only [FailsFirst, except_map_eq_error_iff, exists_except_map_eq_ok_iff]

theorem mapM_eq_ok_iff :
    items.mapM f = .ok values ↔
      List.Forall₂ (fun item value => f item = .ok value) items values := by
  induction items generalizing values with
  | nil =>
      rw [List.mapM_nil, List.forall₂_nil_left_iff]
      exact ⟨fun hSame => (Except.ok.inj hSame).symm, fun hNil => hNil ▸ rfl⟩
  | cons item rest ih =>
      rw [List.mapM_cons, except_bind_eq_ok_iff, List.forall₂_cons_left_iff]
      constructor
      · rintro ⟨value, hValue, hRest⟩
        obtain ⟨others, hOthers, hAll⟩ := except_bind_eq_ok_iff.mp hRest
        exact ⟨value, others, hValue, ih.mp hOthers, (Except.ok.inj hAll).symm⟩
      · rintro ⟨value, others, hValue, hOthers, rfl⟩
        exact ⟨value, hValue, except_bind_eq_ok_iff.mpr ⟨others, ih.mpr hOthers, rfl⟩⟩

/-- All items are gone through exactly if none of them fails. -/
theorem exists_mapM_eq_ok_iff :
    (∃ values, items.mapM f = .ok values) ↔ ∀ item ∈ items, ∃ value, f item = .ok value := by
  simp only [mapM_eq_ok_iff]
  induction items with
  | nil => simp
  | cons item rest ih =>
      simp only [List.forall₂_cons_left_iff, List.forall_mem_cons, ← ih]
      constructor
      · rintro ⟨_, value, others, hValue, hOthers, rfl⟩
        exact ⟨⟨value, hValue⟩, others, hOthers⟩
      · rintro ⟨⟨value, hValue⟩, others, hOthers⟩
        exact ⟨_, value, others, hValue, hOthers, rfl⟩

/-- Otherwise the first failure is that of the whole. -/
theorem mapM_eq_error_iff : items.mapM f = .error cause ↔ FailsFirst f items cause := by
  induction items with
  | nil => exact ⟨nofun, fun hFails => absurd hFails not_failsFirst_nil⟩
  | cons item rest ih =>
      rw [List.mapM_cons, failsFirst_cons, ← ih]
      cases f item with
      | error other => simp [bind, Except.bind]
      | ok value => cases rest.mapM f <;> simp [bind, Except.bind, pure, Except.pure]

end PageGen
