import FlipperBack.Infrastructure.UnitOfWork
import FlipperBack.UseCase.Executions

/-!
# One player for a pseudo

Any number of `CreateOrGetPlayer` for one pseudo agree on its player: the first
insertion that goes through is the only one, and whoever is refused by the unique
index finds the row that has won (`createOrGetPlayer_agree`).
-/

namespace FlipperBack

open Effects Python

/-! ## The calls of the executions -/

/-- Where an execution is: it has no player yet; or it has found no row, and is to
insert one; or the index has refused its row; or it has a player, and then has
responded. `broken` is any other end. -/
inductive LookPhase
  | looking
  | missing
  | duplicate
  | found (player : Player)
  | responded
  | broken

namespace LookPhase

/-- How an answer moves an execution. -/
def after (pseudo : String) : LookPhase → (call : PgCall) → Except Exc call.Res → LookPhase
  | looking, .selectPlayer _, .ok (some player) => found player
  | looking, .selectPlayer _, .ok none => missing
  | missing, .stmt (.insertPlayer _), .ok id => found { id, pseudo := varchar 50 pseudo }
  | missing, .stmt (.insertPlayer _), .error .uniqueViolation => duplicate
  | duplicate, .selectPlayer _, .ok (some player) => found player
  | found _, .respond _, _ => responded
  | _, _, _ => broken

/-- The calls of each phase. -/
def Allows (pseudo : String) : LookPhase → PgCall → Prop
  | looking, call => call = .selectPlayer pseudo
  | missing, call => call = .stmt (.insertPlayer pseudo)
  | duplicate, call => call = .selectPlayer pseudo
  | found player, call => call = .respond (.player (.ok player))
  | responded, _ => False
  | broken, _ => True

/-- An execution ends once it has responded. -/
def Ended : LookPhase → Prop
  | responded => True
  | broken => True
  | _ => False

end LookPhase

def lookup (pseudo : String) : Protocol Exc PgCall.Res LookPhase where
  allowed := LookPhase.Allows pseudo
  answers _ _ := True
  next q call r q' := q' = q.after pseudo call r

/-- Nothing is asked of an execution once it is broken. -/
theorem lookup_broken {pseudo : String} {α : Type} (p : PgProg α) :
    p.Follows (lookup pseudo) LookPhase.Ended LookPhase.Ended .broken := by
  induction p with
  | ret a => trivial
  | raise e => trivial
  | call op k ih => exact ⟨trivial, fun r _ => ⟨.broken, rfl, ih r⟩⟩

theorem lookup_found {pseudo : String} (player : Player) :
    Prog.Follows (lookup pseudo) LookPhase.Ended LookPhase.Ended (.found player)
      (pg (.respond (.player (.ok player)))) :=
  ⟨rfl, fun r _ => ⟨.responded, rfl, by cases r <;> trivial⟩⟩

theorem lookup_prog {raw pseudo : String} (hraw : normalizeAndValidate raw = .ok pseudo) :
    (PlayerExecution.createOrGetPlayer raw).prog.Follows (lookup pseudo) LookPhase.Ended
      LookPhase.Ended .looking := by
  rw [PlayerExecution.prog, CreateOrGetPlayer.execute, hraw]
  refine ⟨rfl, fun r _ => ⟨_, rfl, ?_⟩⟩
  rcases r with e | _ | player
  · exact lookup_broken _
  · refine ⟨rfl, fun r _ => ⟨_, rfl, ?_⟩⟩
    rcases r with e | id
    · cases e with
      | uniqueViolation =>
          -- The row that has won is fetched again.
          refine ⟨rfl, fun r _ => ⟨_, rfl, ?_⟩⟩
          rcases r with e | _ | player
          · exact lookup_broken _
          · exact lookup_broken _
          · exact lookup_found player
      | _ => exact lookup_broken _
    · exact lookup_found _
  · exact lookup_found player

/-- An execution makes four calls at most. -/
theorem createOrGetPlayer_within {raw pseudo : String}
    (hraw : normalizeAndValidate raw = .ok pseudo) :
    (PlayerExecution.createOrGetPlayer raw).prog.Within 4 := by
  have hrespond : ∀ response n, Prog.Within (pg (.respond response)) (n + 1) :=
    fun response n r => by cases r <;> trivial
  rw [PlayerExecution.prog, CreateOrGetPlayer.execute, hraw]
  intro r
  rcases r with e | _ | player
  · exact hrespond _ 2
  · intro r
    rcases r with e | id
    · cases e with
      | uniqueViolation =>
          intro r
          rcases r with e | _ | player <;> exact hrespond _ 0
      | playerAlreadyExists message =>
          intro r
          rcases r with e | _ | player <;> exact hrespond _ 0
      | _ => exact hrespond _ 1
    · exact hrespond _ 1
  · exact hrespond _ 2

/-! ## The row that wins -/

/-- The player of the pseudo. -/
def Postgres.Row (s : Postgres) (pseudo : String) (player : Player) : Prop :=
  player.pseudo = pseudo ∧ (none, { id := player.id, pseudo := pseudo }) ∈ s.players.rows

/-- The players are those of `s`, and one of the pseudo if there was none; whoever
has found a player has found that one. -/
structure Agree (pseudo : String) (s : Postgres) (v : Server) (phase : ℕ → LookPhase) : Prop where
  outside : ∀ i, v.pg.inTransaction i = false
  committed : ∀ x ∈ v.pg.players.rows, x.1 = none
  rows : v.pg.players.rows = s.players.rows ∨
    (∀ x ∈ s.players.rows, x.2.pseudo ≠ pseudo) ∧
      ∃ id, v.pg.players.rows = s.players.rows ++ [(none, { id := id, pseudo := pseudo })]
  found : ∀ i player, phase i = .found player → v.pg.Row pseudo player
  duplicate : ∀ i, phase i = .duplicate → ∃ player, v.pg.Row pseudo player
  sound : ∀ i, phase i ≠ .broken
  responses : ∀ x ∈ v.responses, ∃ player, x.2 = .player (.ok player) ∧ v.pg.Row pseudo player
  responded : ∀ i, phase i = .responded → ∃ x ∈ v.responses, x.1 = i

/-- There is one player of the pseudo. -/
theorem Postgres.Row.unique {s : Postgres} {pseudo : String} {p q : Player} (hp : s.Row pseudo p)
    (hq : s.Row pseudo q) : p = q := by
  have hrow := List.inj_on_of_nodup_map s.players_pseudo hp.2 hq.2 rfl
  have hid : p.id = q.id := congrArg (fun x => x.2.id) hrow
  have hpseudo : p.pseudo = q.pseudo := hp.1.trans hq.1.symm
  cases p
  cases q
  subst hid hpseudo
  rfl

namespace Agree

variable {pseudo : String} {s : Postgres} {v v' : Server} {phase : ℕ → LookPhase} {i : ℕ}
  {q : LookPhase}

/-- Whoever looks for the player finds the row of the pseudo, or there is none. -/
theorem selectPlayer (h : Agree pseudo s v phase) (hfits : fitsText pseudo = true) (i : ℕ) :
    (∃ player, v.pg.Row pseudo player ∧
        (serve i (.selectPlayer pseudo) v).1 = .ok (some player)) ∨
      (∀ x ∈ v.pg.players.rows, x.2.pseudo ≠ pseudo) ∧
        (serve i (.selectPlayer pseudo) v).1 = .ok none := by
  have hserve : (serve i (.selectPlayer pseudo) v).1 =
      .ok ((v.pg.players.committed.find? fun p => p.pseudo = pseudo).map PlayerRow.toPlayer) := by
    rw [serve, Postgres.selectPlayer, if_neg (by simp [hfits]),
      Postgres.owner_of_not (h.outside i), TxTable.visible_none]
    rfl
  cases hfind : v.pg.players.committed.find? fun p => p.pseudo = pseudo with
  | none =>
      refine Or.inr ⟨fun x hx heq => ?_, by rw [hserve, hfind]; rfl⟩
      obtain ⟨owner, row⟩ := x
      obtain rfl : owner = none := h.committed _ hx
      have hnone := List.find?_eq_none.mp hfind row (TxTable.mem_committed.mpr hx)
      exact hnone (by simpa using heq)
  | some row =>
      have hpseudo : row.pseudo = pseudo := by simpa using List.find?_some hfind
      have hrow := TxTable.mem_committed.mp (List.mem_of_find?_eq_some hfind)
      subst hpseudo
      exact Or.inl ⟨row.toPlayer, ⟨rfl, hrow⟩, by rw [hserve, hfind]; rfl⟩

/-- A call that writes nothing leads to a player that is there. -/
theorem of_read (h : Agree pseudo s v phase) (hbroken : q ≠ .broken)
    (hresponded : q ≠ .responded) (hfound : ∀ player, q = .found player → v.pg.Row pseudo player)
    (hduplicate : q = .duplicate → ∃ player, v.pg.Row pseudo player) :
    Agree pseudo s v (Function.update phase i q) := by
  refine { h with found := ?_, duplicate := ?_, sound := ?_, responded := ?_ }
  · intro j player hj
    by_cases hji : j = i
    · rw [hji, Function.update_self] at hj
      exact hfound player hj
    · rw [Function.update_of_ne hji] at hj
      exact h.found j player hj
  · intro j hj
    by_cases hji : j = i
    · rw [hji, Function.update_self] at hj
      exact hduplicate hj
    · rw [Function.update_of_ne hji] at hj
      exact h.duplicate j hj
  · intro j
    by_cases hji : j = i
    · rw [hji, Function.update_self]
      exact hbroken
    · rw [Function.update_of_ne hji]
      exact h.sound j
  · intro j hj
    by_cases hji : j = i
    · rw [hji, Function.update_self] at hj
      exact absurd hj hresponded
    · rw [Function.update_of_ne hji] at hj
      exact h.responded j hj

/-- The first insertion that goes through adds the row of the pseudo. -/
theorem of_insert (h : Agree pseudo s v phase) (hstored : varchar 50 pseudo = pseudo) {id : ℕ}
    {s' : Postgres} (hinsert : v.pg.insertPlayer i pseudo = .ok (id, s')) :
    Agree pseudo s { v with pg := s' }
      (Function.update phase i (.found { id, pseudo := varchar 50 pseudo })) := by
  have habsent := Postgres.insertPlayer_absent hinsert
  obtain ⟨-, htables, htx⟩ := Postgres.insertPlayer_ok hinsert
  rw [hstored] at htables habsent ⊢
  rw [Postgres.owner_of_not (h.outside i)] at htables
  have hrows : s'.players.rows = v.pg.players.rows ++ [(none, { id := id, pseudo := pseudo })] :=
    congrArg Prod.fst htables
  have hold : v.pg.players.rows = s.players.rows := by
    rcases h.rows with hsame | ⟨-, id', hadded⟩
    · exact hsame
    · exact absurd rfl (habsent (none, { id := id', pseudo := pseudo }) (by simp [hadded]))
  have hrow : ∀ player, v.pg.Row pseudo player → s'.Row pseudo player :=
    fun player ⟨hpseudo, hmem⟩ => ⟨hpseudo, by rw [hrows]; exact List.mem_append_left _ hmem⟩
  have hnew : s'.Row pseudo { id, pseudo } := ⟨rfl, by simp [hrows]⟩
  have hstart : Agree pseudo s { v with pg := s' } phase :=
    { h with
      outside := fun j => by rw [htx]; exact h.outside j
      committed := fun x hx => by
        rcases List.mem_append.mp (hrows ▸ hx) with hx | hx
        · exact h.committed x hx
        · rw [List.mem_singleton.mp hx]
      rows := Or.inr ⟨hold ▸ habsent, id, by rw [hrows, hold]⟩
      found := fun j player hj => hrow player (h.found j player hj)
      duplicate := fun j hj => (h.duplicate j hj).imp hrow
      responses := fun x hx => (h.responses x hx).imp fun player hplayer =>
        ⟨hplayer.1, hrow player hplayer.2⟩ }
  refine hstart.of_read (by simp) (by simp) (fun player hplayer => ?_) (by simp)
  obtain rfl := LookPhase.found.inj hplayer
  exact hnew

/-- An insertion that is refused finds the pseudo in a row. -/
theorem of_refused (h : Agree pseudo s v phase) (hpseudo : isVarchar 50 pseudo = true) {e : Exc}
    (hinsert : v.pg.insertPlayer i pseudo = .error e) :
    e = .uniqueViolation ∧ ∃ player, v.pg.Row pseudo player := by
  unfold Postgres.insertPlayer at hinsert
  rw [if_neg (by simp [fitsVarchar_of_isVarchar hpseudo])] at hinsert
  split at hinsert
  · next hmem =>
      rw [varchar_of_isVarchar hpseudo] at hmem
      obtain ⟨⟨owner, row⟩, hx, rfl⟩ := List.mem_map.mp hmem
      obtain rfl : owner = none := h.committed _ hx
      exact ⟨(Except.error.inj hinsert).symm, row.toPlayer, rfl, hx⟩
  · cases hinsert

/-- An execution that has a player responds with it. -/
theorem of_respond (h : Agree pseudo s v phase) {player : Player} (hfound : phase i = .found player) :
    Agree pseudo s { v with responses := v.responses ++ [(i, .player (.ok player))] }
      (Function.update phase i .responded) where
  outside := h.outside
  committed := h.committed
  rows := h.rows
  found j player hj := by
    by_cases hji : j = i
    · rw [hji, Function.update_self] at hj
      cases hj
    · rw [Function.update_of_ne hji] at hj
      exact h.found j player hj
  duplicate j hj := by
    by_cases hji : j = i
    · rw [hji, Function.update_self] at hj
      cases hj
    · rw [Function.update_of_ne hji] at hj
      exact h.duplicate j hj
  sound j := by
    by_cases hji : j = i
    · rw [hji, Function.update_self]
      simp
    · rw [Function.update_of_ne hji]
      exact h.sound j
  responses x hx := by
    rcases List.mem_append.mp hx with hx | hx
    · exact h.responses x hx
    · exact ⟨player, by rw [List.mem_singleton.mp hx], h.found i player hfound⟩
  responded j hj := by
    by_cases hji : j = i
    · exact ⟨_, List.mem_append_right _ (List.mem_singleton_self _), hji.symm⟩
    · rw [Function.update_of_ne hji] at hj
      obtain ⟨x, hx, rfl⟩ := h.responded j hj
      exact ⟨x, List.mem_append_left _ hx, rfl⟩

/-- What a call preserves. -/
theorem step (h : Agree pseudo s v phase) (hpseudo : isVarchar 50 pseudo = true) {call : PgCall}
    (hallowed : LookPhase.Allows pseudo (phase i) call) :
    Agree pseudo s (serve i call v).2
      (Function.update phase i ((phase i).after pseudo call (serve i call v).1)) := by
  have htext : fitsText pseudo = true := ((Bool.and_eq_true _ _).mp hpseudo).1
  cases hphase : phase i with
  | looking =>
      rw [hphase] at hallowed
      obtain rfl := hallowed
      rcases h.selectPlayer htext i with ⟨player, hrow, hr⟩ | ⟨-, hr⟩
      · rw [hr]
        refine h.of_read (by simp [LookPhase.after]) (by simp [LookPhase.after]) ?_ ?_
        · rintro _ ⟨⟩
          exact hrow
        · rintro ⟨⟩
      · rw [hr]
        exact h.of_read (by simp [LookPhase.after]) (by simp [LookPhase.after])
          (by simp [LookPhase.after]) (by simp [LookPhase.after])
  | missing =>
      rw [hphase] at hallowed
      obtain rfl := hallowed
      cases hinsert : v.pg.insertPlayer i pseudo with
      | ok r =>
          rw [serve, hinsert]
          exact h.of_insert (varchar_of_isVarchar hpseudo) hinsert
      | error e =>
          obtain ⟨rfl, hrow⟩ := h.of_refused hpseudo hinsert
          rw [serve, hinsert]
          exact h.of_read (by simp [Server.write, LookPhase.after])
            (by simp [Server.write, LookPhase.after]) (by simp [Server.write, LookPhase.after])
            fun _ => hrow
  | duplicate =>
      rw [hphase] at hallowed
      obtain rfl := hallowed
      obtain ⟨winner, hwinner⟩ := h.duplicate i hphase
      rcases h.selectPlayer htext i with ⟨player, hrow, hr⟩ | ⟨habsent, -⟩
      · rw [hr]
        refine h.of_read (by simp [LookPhase.after]) (by simp [LookPhase.after]) ?_ ?_
        · rintro _ ⟨⟩
          exact hrow
        · rintro ⟨⟩
      · -- The row that has won is still there.
        exact absurd rfl (habsent _ hwinner.2)
  | found player =>
      rw [hphase] at hallowed
      obtain rfl := hallowed
      exact h.of_respond hphase
  | responded =>
      rw [hphase] at hallowed
      exact hallowed.elim
  | broken => exact absurd hphase (h.sound i)

end Agree

/-! ## Every interleaving -/

section Runs

variable {pseudo : String} {s : Postgres} {raws : List String} {pool : PgPool}

/-- The executions keep to their phases, which agree with the players. -/
abbrev PgPool.Agrees (pseudo : String) (s : Postgres) (raws : List String) (pool : PgPool) : Prop :=
  pool.Keeps (lookup pseudo) LookPhase.Ended (fun i => i) raws.length (Agree pseudo s)

/-- The executions before they have made any call. -/
abbrev PgPool.startLookups (s : Postgres) (raws : List String) : PgPool :=
  PgPool.start s (raws.map fun raw => (PlayerExecution.createOrGetPlayer raw).prog)

theorem agrees_start (hidle : ∀ c, s.Idle c)
    (hraws : ∀ raw ∈ raws, normalizeAndValidate raw = .ok pseudo) :
    (PgPool.startLookups s raws).Agrees pseudo s raws := by
  refine PgPool.keeps_start s (List.length_map _) (fun _ => .looking) (fun i p hp => ?_) ?_
  · rw [List.getElem?_map] at hp
    obtain ⟨raw, hraw, rfl⟩ := Option.map_eq_some_iff.mp hp
    exact lookup_prog (hraws raw (List.mem_of_getElem? hraw))
  · exact
      { outside := fun c => (hidle c).inTransaction
        committed := fun x hx => by
          obtain ⟨owner, row⟩ := x
          cases owner with
          | none => rfl
          | some c => exact absurd rfl ((hidle c).players _ hx)
        rows := Or.inl rfl
        found := fun i player hi => by cases hi
        duplicate := fun i hi => by cases hi
        sound := fun i => by simp
        responses := fun x hx => by cases hx
        responded := fun i hi => by cases hi }

theorem agrees_step (hraws : ∀ raw ∈ raws, normalizeAndValidate raw = .ok pseudo)
    (hpool : pool.Agrees pseudo s raws) (i : ℕ) : (PgPool.step pool i).Agrees pseudo s raws := by
  refine Pool.tryStep_keeps (C := fun _ _ _ => True) (fun _ _ _ => trivial) ?_ hpool
    fun _ _ => trivial
  rintro i call q phase v hi hagree hallowed - - rfl
  exact hagree.step (isVarchar_of_normalize (hraws _ (List.getElem_mem hi))) hallowed

/-- No execution waits: every row is committed. -/
theorem agrees_ready (hpool : pool.Agrees pseudo s raws) (i : ℕ) : pool.Ready waits i := by
  intro c call k hthread
  obtain ⟨-, -, phase, hfollow, hagree⟩ := hpool
  have hallowed : LookPhase.Allows pseudo (phase i) call := (hfollow i c _ hthread).1
  cases hphase : phase i with
  | missing =>
      rw [hphase] at hallowed
      obtain rfl := hallowed
      refine List.any_eq_false.mpr fun x hx => ?_
      simp [hagree.committed x hx]
  | responded =>
      rw [hphase] at hallowed
      exact hallowed.elim
  | broken => exact absurd hphase (hagree.sound i)
  | _ =>
      rw [hphase] at hallowed
      obtain rfl := hallowed
      rfl

/-- An execution that has made its calls has responded. -/
theorem agrees_responded (hpool : pool.Agrees pseudo s raws) {i : ℕ} (hi : i < raws.length)
    (hwithin : ∀ t, pool.threads[i]? = some t → t.2.Within 0) :
    ∃ x ∈ pool.state.responses, x.1 = i := by
  obtain ⟨hlength, -, phase, hfollow, hagree⟩ := hpool
  obtain ⟨⟨c, p⟩, hthread⟩ : ∃ t, pool.threads[i]? = some t :=
    ⟨_, List.getElem?_eq_getElem (hlength ▸ hi)⟩
  have hended : LookPhase.Ended (phase i) := by
    have hp := hfollow i c p hthread
    have hcalls := hwithin _ hthread
    cases p with
    | ret a => exact hp
    | raise e => exact hp
    | call op k => exact hcalls.elim
  refine hagree.responded i ?_
  cases hphase : phase i with
  | responded => rfl
  | broken => exact absurd hphase (hagree.sound i)
  | _ =>
      rw [hphase] at hended
      exact hended.elim

end Runs

/-- The players of a pseudo are one row where one is. -/
theorem Postgres.Row.filter_eq {s : Postgres} {pseudo : String} {player : Player}
    (h : s.Row pseudo player) :
    (s.players.rows.filter fun x => x.2.pseudo = pseudo) =
      [(none, { id := player.id, pseudo := pseudo })] :=
  TxTable.filter_column s.players_pseudo h.2

/-- Whatever the interleaving of executions of `CreateOrGetPlayer` whose pseudos
normalise to one, they add the row of a player at most, and only where there was
none; all those that have ended have the player of the one row of the pseudo, and
each ends once it has had four steps. -/
theorem createOrGetPlayer_agree {s : Postgres} (hidle : ∀ c, s.Idle c) {pseudo : String}
    {raws : List String} (hraws : ∀ raw ∈ raws, normalizeAndValidate raw = .ok pseudo)
    (schedule : List ℕ) :
    let pool := schedule.foldl PgPool.step
      (PgPool.start s (raws.map fun raw => (PlayerExecution.createOrGetPlayer raw).prog))
    (pool.state.pg.players.rows = s.players.rows ∨
      (∀ x ∈ s.players.rows, x.2.pseudo ≠ pseudo) ∧ ∃ id, pool.state.pg.players.rows =
        s.players.rows ++ [(none, { id := id, pseudo := pseudo })]) ∧
    (pool.state.responses = [] ∨ ∃ player : Player, player.pseudo = pseudo ∧
      (∀ x ∈ pool.state.responses, x.2 = .player (.ok player)) ∧
      (pool.state.pg.players.rows.filter fun x => x.2.pseudo = pseudo) =
        [(none, { id := player.id, pseudo := pseudo })]) ∧
    ∀ i < raws.length, 4 ≤ schedule.count i → ∃ x ∈ pool.state.responses, x.1 = i := by
  intro pool
  have hstart := agrees_start hidle hraws
  have hpool : pool.Agrees pseudo s raws :=
    Runs.invariant (C := fun _ _ => True) (I := PgPool.Agrees pseudo s raws)
      (fun _ i h _ => agrees_step hraws h i) hstart (Runs.along_of_forall (fun _ _ => trivial) _ _)
  have hagree := hpool
  obtain ⟨-, -, phase, -, hagree⟩ := hagree
  refine ⟨hagree.rows, ?_, fun i hi hcount => agrees_responded hpool hi ?_⟩
  · cases hresponses : pool.state.responses with
    | nil => exact Or.inl rfl
    | cons x responses =>
        obtain ⟨player, -, hrow⟩ := hagree.responses x (by simp [hresponses])
        refine Or.inr ⟨player, hrow.1, fun y hy => ?_, hrow.filter_eq⟩
        obtain ⟨player', hy, hrow'⟩ := hagree.responses y (hresponses ▸ hy)
        rw [hy, hrow'.unique hrow]
  · have hready : Runs.Along PgPool.step (Pool.Ready waits) (PgPool.startLookups s raws) schedule :=
      Runs.Along.imp (C := fun _ _ => True) (I := PgPool.Agrees pseudo s raws)
        (fun _ i h _ => agrees_step hraws h i) (fun _ i h _ => agrees_ready h i) hstart
        (Runs.along_of_forall (fun _ _ => trivial) _ _)
    have hwithin := Pool.run_within (j := i) (n := 4) hready ?_
    · rwa [Nat.sub_eq_zero_of_le hcount] at hwithin
    · intro t ht
      rw [PgPool.thread_start, List.getElem?_map, List.getElem?_eq_getElem hi] at ht
      obtain rfl := Option.some.inj ht
      exact createOrGetPlayer_within (hraws _ (List.getElem_mem hi))

/-- Two executions find no player; the insertion of the second one is refused. -/
theorem createOrGetPlayer_agree_race :
    let raws := ["abc", "ABC"]
    let pool := [0, 1, 0, 1, 1, 1, 0, 0].foldl PgPool.step (PgPool.start { clock := fun _ => default }
      (raws.map fun raw => (PlayerExecution.createOrGetPlayer raw).prog))
    ∃ player : Player, player.pseudo = "ABC" ∧
      (∀ x ∈ pool.state.responses, x.2 = .player (.ok player)) ∧
      (pool.state.pg.players.rows.filter fun x => x.2.pseudo = "ABC") =
        [(none, { id := player.id, pseudo := "ABC" })] ∧
      (∃ x ∈ pool.state.responses, x.1 = 0) ∧ ∃ x ∈ pool.state.responses, x.1 = 1 := by
  intro raws
  let s : Postgres := { clock := fun _ => default }
  have hidle : ∀ c, s.Idle c := Postgres.idle_empty _
  have hraws : ∀ raw ∈ raws, normalizeAndValidate raw = .ok "ABC" := by decide +kernel
  have hagree := createOrGetPlayer_agree hidle hraws [0, 1, 0, 1, 1, 1, 0, 0]
  dsimp only at hagree
  generalize [0, 1, 0, 1, 1, 1, 0, 0].foldl PgPool.step (PgPool.start s
    (raws.map fun raw => (PlayerExecution.createOrGetPlayer raw).prog)) = pool at hagree ⊢
  obtain ⟨-, hresponses, hended⟩ := hagree
  have hfirst := hended 0 (by decide) (by decide)
  have hsecond := hended 1 (by decide) (by decide)
  rcases hresponses with hnone | ⟨player, hpseudo, hplayer, hrows⟩
  · obtain ⟨x, hx, -⟩ := hfirst
    rw [hnone] at hx
    cases hx
  · exact ⟨player, hpseudo, hplayer, hrows, hfirst, hsecond⟩

end FlipperBack
