import Mathlib.Data.List.Basic

/-!
# Runs of a transition function

A run of `step : σ → α → σ` from `s` over the list of inputs `as` ends in
`as.foldl step s`. `Along step C s as` says that every step of the run meets
`C`, a condition on the input and on the state it is taken from. Invariants go
from one step to a run by `invariant`, conditions on steps by `Along.imp`.
-/

namespace Effects

namespace Runs

variable {σ α : Type} {step : σ → α → σ}

/-- Every step of the run from `s` over `as` meets `C`. -/
def Along (step : σ → α → σ) (C : σ → α → Prop) : σ → List α → Prop
  | _, [] => True
  | s, a :: as => C s a ∧ Along step C (step s a) as

instance decidableAlong (C : σ → α → Prop) [∀ s a, Decidable (C s a)] :
    (s : σ) → (as : List α) → Decidable (Along step C s as)
  | _, [] => isTrue trivial
  | s, a :: as =>
      have := decidableAlong C (step s a) as
      inferInstanceAs (Decidable (C s a ∧ Along step C (step s a) as))

@[simp] theorem along_nil (C : σ → α → Prop) (s : σ) : Along step C s [] := trivial

@[simp] theorem along_cons (C : σ → α → Prop) (s : σ) (a : α) (as : List α) :
    Along step C s (a :: as) ↔ C s a ∧ Along step C (step s a) as := Iff.rfl

theorem along_append (C : σ → α → Prop) (s : σ) (as bs : List α) :
    Along step C s (as ++ bs) ↔
      Along step C s as ∧ Along step C (as.foldl step s) bs := by
  induction as generalizing s with
  | nil => simp
  | cons a as ih => simp [ih, and_assoc]

/-- An invariant that every step meeting `C` preserves holds at the end of every
run whose steps all meet `C`. -/
theorem invariant {C : σ → α → Prop} {I : σ → Prop}
    (hstep : ∀ s a, I s → C s a → I (step s a)) {s : σ} (hs : I s) {as : List α}
    (has : Along step C s as) : I (as.foldl step s) := by
  induction as generalizing s with
  | nil => exact hs
  | cons a as ih => exact ih (hstep s a hs has.1) has.2

/-- Under an invariant, one condition on the steps of a run gives another. -/
theorem Along.imp {C D : σ → α → Prop} {I : σ → Prop}
    (hstep : ∀ s a, I s → C s a → I (step s a)) (hCD : ∀ s a, I s → C s a → D s a)
    {s : σ} (hs : I s) {as : List α} (has : Along step C s as) : Along step D s as := by
  induction as generalizing s with
  | nil => trivial
  | cons a as ih => exact ⟨hCD s a hs has.1, ih (hstep s a hs has.1) has.2⟩

theorem Along.and {C D : σ → α → Prop} {s : σ} {as : List α}
    (hC : Along step C s as) (hD : Along step D s as) :
    Along step (fun s a => C s a ∧ D s a) s as := by
  induction as generalizing s with
  | nil => trivial
  | cons a as ih => exact ⟨⟨hC.1, hD.1⟩, ih hC.2 hD.2⟩

theorem Along.mono {C D : σ → α → Prop} (hCD : ∀ s a, C s a → D s a) {s : σ}
    {as : List α} (has : Along step C s as) : Along step D s as :=
  Along.imp (I := fun _ => True) (fun _ _ _ _ => trivial) (fun s a _ => hCD s a) trivial has

/-- A condition that holds of every step from every state holds along every
run. -/
theorem along_of_forall {C : σ → α → Prop} (hC : ∀ s a, C s a) (s : σ) (as : List α) :
    Along step C s as := by
  induction as generalizing s with
  | nil => trivial
  | cons a as ih => exact ⟨hC s a, ih (step s a)⟩

/-- Conditions that hold along a run one by one hold along it together. -/
theorem along_forall {ι : Type} {C : ι → σ → α → Prop} (s : σ) (as : List α) :
    Along step (fun s a => ∀ i, C i s a) s as ↔ ∀ i, Along step (C i) s as := by
  induction as generalizing s with
  | nil => exact iff_of_true trivial fun _ => trivial
  | cons a as ih => exact (and_congr_right fun _ => ih (step s a)).trans forall_and.symm

/-- A condition on the inputs of a run alone holds along it. -/
theorem along_of_mem {P : α → Prop} {as : List α} (hP : ∀ a ∈ as, P a) (s : σ) :
    Along step (fun _ a => P a) s as := by
  induction as generalizing s with
  | nil => trivial
  | cons a as ih =>
      exact ⟨hP a List.mem_cons_self, ih (fun a' ha' => hP a' (List.mem_cons_of_mem a ha')) _⟩

/-! ## Inputs without effect -/

section Taken

variable (step : σ → α → σ) (C : σ → α → Prop) [∀ s a, Decidable (C s a)]

/-- The inputs of a run that meet `C` where they are taken. -/
def taken : σ → List α → List α
  | _, [] => []
  | s, a :: as => if C s a then a :: taken (step s a) as else taken (step s a) as

variable {step C}

/-- Where every other input leaves the state alone, a run is the run over the
inputs that meet `C`, all of which meet it there. -/
theorem along_taken (hskip : ∀ s a, ¬ C s a → step s a = s) (s : σ) (as : List α) :
    Along step C s (taken step C s as) ∧ (taken step C s as).foldl step s = as.foldl step s := by
  induction as generalizing s with
  | nil => exact ⟨trivial, rfl⟩
  | cons a as ih =>
      rw [taken, List.foldl_cons]
      split
      · next ha => exact ⟨⟨ha, (ih _).1⟩, (ih _).2⟩
      · next ha =>
          rw [hskip s a ha]
          exact ih s

end Taken

/-! ## Inputs chosen from the state -/

/-- Inputs chosen from the state: those of `p`, then those `q` chooses where `p`
has led. -/
def andThen (step : σ → α → σ) (p q : σ → List α) (s : σ) : List α :=
  p s ++ q ((p s).foldl step s)

theorem foldl_andThen (p q : σ → List α) (s : σ) :
    (andThen step p q s).foldl step s =
      (q ((p s).foldl step s)).foldl step ((p s).foldl step s) := by
  rw [andThen, List.foldl_append]

theorem along_andThen {C : σ → α → Prop} {p q : σ → List α} {s : σ}
    (hp : Along step C s (p s)) (hq : ∀ s, Along step C s (q s)) :
    Along step C s (andThen step p q s) :=
  (along_append C s _ _).mpr ⟨hp, hq _⟩

/-! ## Inputs that are seen -/

section Leads

variable {β : Type} {C : σ → α → Prop} {obs : α → Option β}

/-- Every run that meets `C` and in which `bs` is seen leads from `Q` to `R`. -/
def Leads (step : σ → α → σ) (C : σ → α → Prop) (obs : α → Option β) (Q : σ → Prop) (bs : List β)
    (R : σ → Prop) : Prop :=
  ∀ s as, Q s → Along step C s as → as.filterMap obs = bs → R (as.foldl step s)

theorem Leads.of_imp {Q Q' R : σ → Prop} {bs : List β} (h : Leads step C obs Q' bs R)
    (hQ : ∀ s, Q s → Q' s) : Leads step C obs Q bs R :=
  fun s as hs => h s as (hQ s hs)

theorem Leads.nil {Q : σ → Prop} (hQ : ∀ s a, Q s → C s a → obs a = none → Q (step s a)) :
    Leads step C obs Q [] Q := by
  intro s as hs has hobs
  induction as generalizing s with
  | nil => exact hs
  | cons a as ih =>
      obtain ⟨ha, hrest⟩ := List.forall_mem_cons.mp (List.filterMap_eq_nil_iff.mp hobs)
      exact ih _ (hQ s a hs has.1 ha) has.2 (List.filterMap_eq_nil_iff.mpr hrest)

/-- What is not seen keeps `Q`, and what is seen first leads to `Q'`. -/
theorem Leads.cons {Q Q' R : σ → Prop} {b : β} {bs : List β}
    (hQ : ∀ s a, Q s → C s a → obs a = none → Q (step s a))
    (hb : ∀ s a, Q s → C s a → obs a = some b → Q' (step s a)) (h : Leads step C obs Q' bs R) :
    Leads step C obs Q (b :: bs) R := by
  intro s as hs has hobs
  induction as generalizing s with
  | nil => cases hobs
  | cons a as ih =>
      cases ha : obs a with
      | none =>
          rw [List.filterMap_cons_none ha] at hobs
          exact ih _ (hQ s a hs has.1 ha) has.2 hobs
      | some b' =>
          rw [List.filterMap_cons_some ha] at hobs
          obtain ⟨rfl, hrest⟩ := List.cons.inj hobs
          exact h _ as (hb s a hs has.1 ha) has.2 hrest

end Leads

end Runs

end Effects
