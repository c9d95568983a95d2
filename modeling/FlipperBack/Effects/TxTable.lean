import Mathlib.Data.List.Nodup

/-!
# Tables under transactions

A row of a `TxTable` is committed, or it belongs to the transaction of the
connection that has inserted it and has not committed yet. The keys come from a
sequence and are unique over all the rows, whoever they belong to. A transaction
sees the committed rows and its own (`visible`). `Refers` is a foreign key: the
row it points to is committed, or belongs to the same transaction.
-/

namespace Effects

/-- The rows of a table, each with the connection whose transaction it belongs
to, if any. -/
structure TxTable (κ : Type) {ρ : Type} (key : ρ → ℕ) where
  rows : List (Option κ × ρ) := []
  seq : ℕ := 0
  le_seq : ∀ r ∈ rows, key r.2 ≤ seq := by simp
  nodup : (rows.map fun r => key r.2).Nodup := by simp

namespace TxTable

variable {κ ρ ρ' υ : Type} {key : ρ → ℕ} {key' : ρ' → ℕ}

/-- What every connection sees. -/
def committed (t : TxTable κ key) : List ρ :=
  (t.rows.filter fun r => r.1 = none).map Prod.snd

/-- Insert a row with the next key, for the transaction of `owner` or for
good. -/
def insert (t : TxTable κ key) (owner : Option κ) (row : { r : ρ // key r = t.seq + 1 }) :
    TxTable κ key where
  rows := t.rows ++ [(owner, row.val)]
  seq := t.seq + 1
  le_seq r hr := by
    rcases List.mem_append.mp hr with hr | hr
    · exact Nat.le_succ_of_le (t.le_seq r hr)
    · rw [List.mem_singleton.mp hr]
      exact Nat.le_of_eq row.property
  nodup := by
    rw [List.map_append, List.nodup_append]
    refine ⟨t.nodup, by simp, ?_⟩
    intro a ha b hb hab
    obtain ⟨r, hr, rfl⟩ := List.mem_map.mp ha
    have hb : b = key row.val := by simpa using hb
    have hle := t.le_seq r hr
    have hrow := row.property
    omega

/-- Change the committed rows, the keys apart. -/
def update (t : TxTable κ key) (f : ρ → ρ) (hf : ∀ r, key (f r) = key r) : TxTable κ key where
  rows := t.rows.map fun r => if r.1 = none then (r.1, f r.2) else r
  seq := t.seq
  le_seq r hr := by
    obtain ⟨r', hr', rfl⟩ := List.mem_map.mp hr
    split
    · rw [hf]
      exact t.le_seq r' hr'
    · exact t.le_seq r' hr'
  nodup := by
    rw [List.map_map]
    refine (List.map_congr_left fun r _ => ?_) ▸ t.nodup
    simp only [Function.comp]
    split
    · exact (hf r.2).symm
    · rfl

variable {t : TxTable κ key} {r : ρ}

theorem mem_committed : r ∈ t.committed ↔ (none, r) ∈ t.rows := by
  rw [committed, List.mem_map]
  constructor
  · rintro ⟨⟨owner, r⟩, hr, rfl⟩
    obtain ⟨hr, howner⟩ := List.mem_filter.mp hr
    obtain rfl : owner = none := of_decide_eq_true howner
    exact hr
  · exact fun hr => ⟨_, List.mem_filter.mpr ⟨hr, by simp⟩, rfl⟩

/-- Rows with one key are one row. -/
theorem eq_of_key {x y : Option κ × ρ} (hx : x ∈ t.rows) (hy : y ∈ t.rows)
    (h : key x.2 = key y.2) : x = y :=
  List.inj_on_of_nodup_map t.nodup hx hy h

theorem mem_insert {owner : Option κ} {row : { r : ρ // key r = t.seq + 1 }} {x : Option κ × ρ} :
    x ∈ (t.insert owner row).rows ↔ x ∈ t.rows ∨ x = (owner, row.val) := by
  simp [insert]

theorem mem_update {f : ρ → ρ} {hf : ∀ r, key (f r) = key r} {x : Option κ × ρ} :
    x ∈ (t.update f hf).rows ↔
      (∃ r, (none, r) ∈ t.rows ∧ x = (none, f r)) ∨ x ∈ t.rows ∧ x.1 ≠ none := by
  rw [update, List.mem_map]
  constructor
  · rintro ⟨⟨owner, r⟩, hy, rfl⟩
    split
    · next hnone =>
        obtain rfl : owner = none := hnone
        exact Or.inl ⟨r, hy, rfl⟩
    · next hsome => exact Or.inr ⟨hy, hsome⟩
  · rintro (⟨r, hr, rfl⟩ | ⟨hx, hsome⟩)
    · exact ⟨_, hr, if_pos rfl⟩
    · exact ⟨x, hx, if_neg hsome⟩

theorem committed_update {f : ρ → ρ} {hf : ∀ r, key (f r) = key r} :
    (t.update f hf).committed = t.committed.map f := by
  change ((t.rows.map fun r => if r.1 = none then (r.1, f r.2) else r).filter
    fun r => r.1 = none).map Prod.snd = ((t.rows.filter fun r => r.1 = none).map Prod.snd).map f
  induction t.rows with
  | nil => rfl
  | cons x rows ih =>
      obtain ⟨owner, r⟩ := x
      cases owner with
      | none => simpa using ih
      | some c => simpa using ih

theorem nodup_column_insert {u : ρ → υ} (h : (t.rows.map fun r => u r.2).Nodup)
    {owner : Option κ} {row : { r : ρ // key r = t.seq + 1 }}
    (hnew : u row.val ∉ t.rows.map fun r => u r.2) :
    ((t.insert owner row).rows.map fun r => u r.2).Nodup := by
  rw [insert, List.map_append, List.nodup_append]
  refine ⟨h, by simp, ?_⟩
  rintro a ha b hb rfl
  rw [List.map_singleton, List.mem_singleton] at hb
  exact hnew (hb ▸ ha)

/-- The rows with the value of one row in a unique column are that row. -/
theorem filter_column {u : ρ → υ} [DecidableEq υ] (h : (t.rows.map fun r => u r.2).Nodup)
    {x : Option κ × ρ} (hx : x ∈ t.rows) : (t.rows.filter fun r => u r.2 = u x.2) = [x] := by
  have hall : ∀ y ∈ t.rows.filter fun r => u r.2 = u x.2, y = x := by
    intro y hy
    obtain ⟨hy, hu⟩ := List.mem_filter.mp hy
    exact List.inj_on_of_nodup_map h hy hx (of_decide_eq_true hu)
  have hmem : x ∈ t.rows.filter fun r => u r.2 = u x.2 := List.mem_filter.mpr ⟨hx, by simp⟩
  have hnodup : (t.rows.filter fun r => u r.2 = u x.2).Nodup := h.of_map.filter _
  rw [List.eq_replicate_of_mem hall] at hnodup ⊢
  have hle := List.nodup_replicate.mp hnodup
  have hpos := List.length_pos_of_mem hmem
  rw [Nat.le_antisymm hle hpos]
  rfl

/-- The row of the key `k` is committed, or of the transaction of `owner`. -/
def Has (t : TxTable κ key) (owner : Option κ) (k : ℕ) : Prop :=
  ∃ y ∈ t.rows, key y.2 = k ∧ (y.1 = none ∨ y.1 = owner)

instance [DecidableEq κ] (owner : Option κ) (k : ℕ) : Decidable (t.Has owner k) :=
  inferInstanceAs (Decidable (∃ y ∈ t.rows, key y.2 = k ∧ (y.1 = none ∨ y.1 = owner)))

/-- A unique column is unique among the committed rows. -/
theorem nodup_committed (t : TxTable κ key) {u : ρ → υ} (h : (t.rows.map fun r => u r.2).Nodup) :
    (t.committed.map u).Nodup := by
  rw [committed, List.map_map]
  exact h.sublist (List.filter_sublist.map _)

/-- A row that connections outside transactions have is committed. -/
theorem committed_of_has {k : ℕ} (h : t.Has none k) : ∃ r ∈ t.committed, key r = k := by
  obtain ⟨⟨owner, r⟩, hr, hkey, hown⟩ := h
  obtain rfl : owner = none := hown.elim id id
  exact ⟨r, mem_committed.mpr hr, hkey⟩

/-- A row of `t'` that points to a key points to a row of `t` that all the
connections that see the first one see too. -/
def Refers (t : TxTable κ key) (t' : TxTable κ key') (f : ρ' → Option ℕ) : Prop :=
  ∀ x ∈ t'.rows, ∀ k ∈ f x.2, t.Has x.1 k

namespace Refers

variable {t' : TxTable κ key'} {f : ρ' → Option ℕ}

theorem insert_target (h : t.Refers t' f) (owner : Option κ)
    (row : { r : ρ // key r = t.seq + 1 }) : (t.insert owner row).Refers t' f := by
  intro x hx k hk
  obtain ⟨y, hy, hkey, hown⟩ := h x hx k hk
  exact ⟨y, mem_insert.mpr (Or.inl hy), hkey, hown⟩

theorem insert_source (h : t.Refers t' f) {owner : Option κ}
    {row : { r : ρ' // key' r = t'.seq + 1 }}
    (hrow : ∀ k ∈ f row.val, t.Has owner k) :
    t.Refers (t'.insert owner row) f := by
  intro x hx
  rcases mem_insert.mp hx with hx | rfl
  · exact h x hx
  · exact hrow

theorem update_target (h : t.Refers t' f) {g : ρ → ρ} {hg : ∀ r, key (g r) = key r} :
    (t.update g hg).Refers t' f := by
  intro x hx k hk
  obtain ⟨y, hy, hkey, hown⟩ := h x hx k hk
  by_cases hnone : y.1 = none
  · refine ⟨(none, g y.2), mem_update.mpr (Or.inl ⟨y.2, ?_, rfl⟩), (hg y.2).trans hkey, Or.inl rfl⟩
    rw [← hnone]
    exact hy
  · exact ⟨y, mem_update.mpr (Or.inr ⟨hy, hnone⟩), hkey, hown⟩

theorem update_source (h : t.Refers t' f) {g : ρ' → ρ'} {hg : ∀ r, key' (g r) = key' r}
    (hgf : ∀ r, f (g r) = f r) : t.Refers (t'.update g hg) f := by
  intro x hx k hk
  rcases mem_update.mp hx with ⟨r, hr, rfl⟩ | ⟨hx, -⟩
  · rw [hgf] at hk
    exact h _ hr k hk
  · exact h x hx k hk

end Refers

/-! ## Transactions -/

section Transactions

variable [DecidableEq κ] {c : κ} {owner : Option κ}

/-- What the transaction of `owner` sees, or a connection that is in none. -/
def visible (t : TxTable κ key) (owner : Option κ) : List ρ :=
  (t.rows.filter fun r => r.1 = none ∨ r.1 = owner).map Prod.snd

theorem mem_visible : r ∈ t.visible owner ↔ ∃ x ∈ t.rows, x.2 = r ∧ (x.1 = none ∨ x.1 = owner) := by
  rw [visible, List.mem_map]
  constructor
  · rintro ⟨x, hx, rfl⟩
    obtain ⟨hx, howner⟩ := List.mem_filter.mp hx
    exact ⟨x, hx, rfl, of_decide_eq_true howner⟩
  · rintro ⟨x, hx, rfl, howner⟩
    exact ⟨x, List.mem_filter.mpr ⟨hx, decide_eq_true howner⟩, rfl⟩

/-- The transaction of `c` commits. -/
def commit (t : TxTable κ key) (c : κ) : TxTable κ key where
  rows := t.rows.map fun r => if r.1 = some c then (none, r.2) else r
  seq := t.seq
  le_seq r hr := by
    obtain ⟨r', hr', rfl⟩ := List.mem_map.mp hr
    split <;> exact t.le_seq r' hr'
  nodup := by
    rw [List.map_map]
    refine (List.map_congr_left fun r _ => ?_) ▸ t.nodup
    simp only [Function.comp]
    split <;> rfl

/-- The transaction of `c` is rolled back; the keys it has taken stay taken. -/
def rollback (t : TxTable κ key) (c : κ) : TxTable κ key where
  rows := t.rows.filter fun r => r.1 ≠ some c
  seq := t.seq
  le_seq r hr := t.le_seq r (List.mem_of_mem_filter hr)
  nodup := t.nodup.sublist (List.filter_sublist.map _)

/-- A connection that is in no transaction sees the committed rows. -/
theorem visible_none : t.visible none = t.committed := by
  simp [visible, committed]

theorem has_iff {k : ℕ} : t.Has owner k ↔ ∃ r ∈ t.visible owner, key r = k := by
  constructor
  · rintro ⟨y, hy, hkey, hown⟩
    exact ⟨y.2, mem_visible.mpr ⟨y, hy, rfl, hown⟩, hkey⟩
  · rintro ⟨r, hr, hkey⟩
    obtain ⟨y, hy, rfl, hown⟩ := mem_visible.mp hr
    exact ⟨y, hy, hkey, hown⟩

theorem mem_commit {x : Option κ × ρ} :
    x ∈ (t.commit c).rows ↔
      x ∈ t.rows ∧ x.1 ≠ some c ∨ x.1 = none ∧ (some c, x.2) ∈ t.rows := by
  rw [commit, List.mem_map]
  constructor
  · rintro ⟨y, hy, rfl⟩
    split
    · next hc => exact Or.inr ⟨rfl, by rw [← hc]; exact hy⟩
    · next hc => exact Or.inl ⟨hy, hc⟩
  · rintro (⟨hx, hc⟩ | ⟨hnone, hx⟩)
    · exact ⟨x, hx, if_neg hc⟩
    · exact ⟨_, hx, (if_pos rfl).trans (Prod.ext hnone.symm rfl)⟩

theorem mem_rollback {x : Option κ × ρ} :
    x ∈ (t.rollback c).rows ↔ x ∈ t.rows ∧ x.1 ≠ some c := by
  rw [rollback, List.mem_filter]
  simp

/-! What a transaction sees outlives the ends of the others. -/

theorem visible_commit (hc : owner ≠ some c) (h : r ∈ t.visible owner) :
    r ∈ (t.commit c).visible owner := by
  obtain ⟨x, hx, rfl, hown⟩ := mem_visible.mp h
  refine mem_visible.mpr ⟨x, mem_commit.mpr (Or.inl ⟨hx, ?_⟩), rfl, hown⟩
  rcases hown with hnone | hown
  · simp [hnone]
  · rw [hown]
    exact hc

theorem visible_rollback (hc : owner ≠ some c) (h : r ∈ t.visible owner) :
    r ∈ (t.rollback c).visible owner := by
  obtain ⟨x, hx, rfl, hown⟩ := mem_visible.mp h
  refine mem_visible.mpr ⟨x, mem_rollback.mpr ⟨hx, ?_⟩, rfl, hown⟩
  rcases hown with hnone | hown
  · simp [hnone]
  · rw [hown]
    exact hc

theorem column_commit (u : ρ → υ) :
    ((t.commit c).rows.map fun r => u r.2) = t.rows.map fun r => u r.2 := by
  rw [commit, List.map_map]
  refine List.map_congr_left fun r _ => ?_
  simp only [Function.comp]
  split <;> rfl

theorem nodup_column_commit {u : ρ → υ} (h : (t.rows.map fun r => u r.2).Nodup) :
    ((t.commit c).rows.map fun r => u r.2).Nodup := by
  rw [column_commit u]
  exact h

theorem nodup_column_rollback {u : ρ → υ} (h : (t.rows.map fun r => u r.2).Nodup) :
    ((t.rollback c).rows.map fun r => u r.2).Nodup :=
  h.sublist (List.filter_sublist.map _)

/-! What a transaction has inserted is committed all at once. -/

/-- What the transaction of `c` has inserted. -/
def pending (t : TxTable κ key) (c : κ) : List ρ :=
  (t.rows.filter fun r => r.1 = some c).map Prod.snd

variable {t' : TxTable κ key} {added : List ρ}

theorem pending_append_none (h : t'.rows = t.rows ++ added.map fun r => (none, r)) :
    t'.pending c = t.pending c := by
  simp [pending, h, List.filter_map, Function.comp_def]

theorem pending_append_self (h : t'.rows = t.rows ++ added.map fun r => (some c, r)) :
    t'.pending c = t.pending c ++ added := by
  simp [pending, h, List.filter_map, Function.comp_def]

theorem pending_append_of_ne {d : κ} (hd : d ≠ c)
    (h : t'.rows = t.rows ++ added.map fun r => (some c, r)) : t'.pending d = t.pending d := by
  simp [pending, h, List.filter_map, Function.comp_def, hd.symm]

omit [DecidableEq κ] in
theorem committed_append_none (h : t'.rows = t.rows ++ added.map fun r => (none, r)) :
    t'.committed = t.committed ++ added := by
  simp [committed, h, List.filter_map, Function.comp_def]

omit [DecidableEq κ] in
theorem committed_append_some (h : t'.rows = t.rows ++ added.map fun r => (some c, r)) :
    t'.committed = t.committed := by
  simp [committed, h, List.filter_map, Function.comp_def]

theorem pending_update {f : ρ → ρ} {hf : ∀ r, key (f r) = key r} :
    (t.update f hf).pending c = t.pending c := by
  change ((t.rows.map fun r => if r.1 = none then (r.1, f r.2) else r).filter
    fun r => r.1 = some c).map Prod.snd = (t.rows.filter fun r => r.1 = some c).map Prod.snd
  induction t.rows with
  | nil => rfl
  | cons x rows ih =>
      obtain ⟨owner, r⟩ := x
      cases owner with
      | none => simpa using ih
      | some d => by_cases hd : d = c <;> simpa [hd] using ih

theorem committed_commit (t : TxTable κ key) (c : κ) :
    (t.commit c).committed.Perm (t.committed ++ t.pending c) := by
  change (((t.rows.map fun r => if r.1 = some c then (none, r.2) else r).filter
    fun r => r.1 = none).map Prod.snd).Perm (((t.rows.filter fun r => r.1 = none).map Prod.snd) ++
      (t.rows.filter fun r => r.1 = some c).map Prod.snd)
  induction t.rows with
  | nil => exact .refl _
  | cons x rows ih =>
      obtain ⟨owner, r⟩ := x
      cases owner with
      | none => simpa using ih
      | some d =>
          by_cases hd : d = c
          · subst hd
            simpa using (ih.cons r).trans List.perm_middle.symm
          · simpa [hd] using ih

theorem pending_commit_self (t : TxTable κ key) (c : κ) : (t.commit c).pending c = [] := by
  rw [pending, List.map_eq_nil_iff, List.filter_eq_nil_iff]
  intro x hx
  rcases mem_commit.mp hx with ⟨-, hc⟩ | ⟨hnone, -⟩
  · simpa using hc
  · simp [hnone]

theorem pending_commit_of_ne {d : κ} (hd : d ≠ c) (t : TxTable κ key) :
    (t.commit c).pending d = t.pending d := by
  change ((t.rows.map fun r => if r.1 = some c then (none, r.2) else r).filter
    fun r => r.1 = some d).map Prod.snd = (t.rows.filter fun r => r.1 = some d).map Prod.snd
  induction t.rows with
  | nil => rfl
  | cons x rows ih =>
      obtain ⟨owner, r⟩ := x
      by_cases hc : owner = some c
      · subst hc
        simpa [hd.symm] using ih
      · by_cases hd' : owner = some d <;> simpa [hc, hd', hd] using ih

theorem committed_rollback (t : TxTable κ key) (c : κ) :
    (t.rollback c).committed = t.committed := by
  change ((t.rows.filter fun r => r.1 ≠ some c).filter fun r => r.1 = none).map Prod.snd = _
  rw [List.filter_filter, committed]
  refine congrArg (List.map Prod.snd) (List.filter_congr fun r _ => ?_)
  cases r.1 <;> simp

theorem pending_rollback_self (t : TxTable κ key) (c : κ) : (t.rollback c).pending c = [] := by
  rw [pending, List.map_eq_nil_iff, List.filter_eq_nil_iff]
  intro x hx
  simpa using (mem_rollback.mp hx).2

theorem pending_rollback_of_ne {d : κ} (hd : d ≠ c) (t : TxTable κ key) :
    (t.rollback c).pending d = t.pending d := by
  change ((t.rows.filter fun r => r.1 ≠ some c).filter fun r => r.1 = some d).map Prod.snd = _
  rw [List.filter_filter, pending]
  refine congrArg (List.map Prod.snd) (List.filter_congr fun r _ => ?_)
  by_cases hd' : r.1 = some d <;> simp [hd', hd]

namespace Refers

variable {t' : TxTable κ key'} {f : ρ' → Option ℕ}

theorem commit (h : t.Refers t' f) (c : κ) : (t.commit c).Refers (t'.commit c) f := by
  intro x hx k hk
  obtain ⟨x₀, hx₀, hval, hown⟩ : ∃ x₀ ∈ t'.rows, x₀.2 = x.2 ∧
      (x₀.1 ≠ some c ∧ x.1 = x₀.1 ∨ x₀.1 = some c ∧ x.1 = none) := by
    rcases mem_commit.mp hx with ⟨hx, hc⟩ | ⟨hnone, hx⟩
    · exact ⟨x, hx, rfl, Or.inl ⟨hc, rfl⟩⟩
    · exact ⟨_, hx, rfl, Or.inr ⟨rfl, hnone⟩⟩
  rw [← hval] at hk
  obtain ⟨y, hy, hkey, hyown⟩ := h x₀ hx₀ k hk
  by_cases hyc : y.1 = some c
  · refine ⟨(none, y.2), mem_commit.mpr (Or.inr ⟨rfl, ?_⟩), hkey, Or.inl rfl⟩
    rw [← hyc]
    exact hy
  · refine ⟨y, mem_commit.mpr (Or.inl ⟨hy, hyc⟩), hkey, ?_⟩
    rcases hyown with hnone | heq
    · exact Or.inl hnone
    · rcases hown with ⟨-, hx⟩ | ⟨hx, -⟩
      · exact Or.inr (heq.trans hx.symm)
      · exact absurd (heq.trans hx) hyc

theorem rollback (h : t.Refers t' f) (c : κ) : (t.rollback c).Refers (t'.rollback c) f := by
  intro x hx k hk
  obtain ⟨hx, hc⟩ := mem_rollback.mp hx
  obtain ⟨y, hy, hkey, hown⟩ := h x hx k hk
  refine ⟨y, mem_rollback.mpr ⟨hy, ?_⟩, hkey, hown⟩
  rcases hown with hnone | heq
  · simp [hnone]
  · rw [heq]
    exact hc

/-- The row that a visible row points to is visible. -/
theorem visible (h : t.Refers t' f) {r' : ρ'} (hr' : r' ∈ t'.visible owner) {k : ℕ}
    (hk : k ∈ f r') : ∃ r ∈ t.visible owner, key r = k := by
  obtain ⟨x, hx, rfl, howner⟩ := mem_visible.mp hr'
  obtain ⟨y, hy, hkey, hown⟩ := h x hx k hk
  refine ⟨y.2, mem_visible.mpr ⟨y, hy, rfl, ?_⟩, hkey⟩
  rcases hown with hnone | heq
  · exact Or.inl hnone
  · rw [heq]
    exact howner

end Refers

end Transactions

end TxTable

end Effects
