import FlipperBack.Infrastructure.Persist
import FlipperBack.Infrastructure.UnitOfWork
import FlipperBack.Properties.Pseudos
import FlipperBack.System.Invariants
import FlipperBack.UseCase.Executions

/-!
# The pseudos of the players

Players are stored by `POST /players`, by the flush of a session and by
`POST /games/start`. The first two normalise the pseudo, the first one itself and the
second one when the session was created; `StartGame` stores the one it is given. Where
that is in normal form, every player is (`players_normal`).
-/

namespace FlipperBack

open Effects Python

/-- The pseudo is in normal form. -/
def NormalPseudo (pseudo : String) : Prop :=
  normalizeAndValidate pseudo = .ok pseudo

/-- The text is looked up in the row: it is its pseudo, or its normal form is. -/
def Resolves (raw : String) (row : PlayerRow) : Prop :=
  row.pseudo = raw ∨ normalizeAndValidate raw = .ok row.pseudo

/-! ## The sessions -/

/-- The pseudos of the sessions that are stored are in normal form. -/
def World.NormalSessions (w : World) : Prop :=
  ∀ id s, w.sessions id = some s → NormalPseudo s.pseudo

section Sessions

variable {w : World}

theorem World.NormalSessions.seen (h : w.NormalSessions) {id : String} {s : Session}
    (hs : w.seen id = some s) : NormalPseudo s.pseudo := by
  obtain ⟨s₀, hs₀, -, rfl⟩ := World.seen_eq_some.mp hs
  exact h id s₀ hs₀

theorem normalSessions_act {a : Act} (h : w.NormalSessions) (ha : a.Enabled w)
    (hcreate : ∀ s, a = .create s → NormalPseudo s.pseudo) : (w.act a).NormalSessions := by
  intro id s hs
  by_cases hid : a.about = some id
  · rw [World.act_sessions_about ha hid] at hs
    cases a with
    | create s' =>
        obtain rfl := Option.some.inj hs
        exact hcreate _ rfl
    | switch via broadcaster s' =>
        obtain rfl := Option.some.inj hs
        exact h.seen (s := s') ha.1
    | event broadcaster now e s' s'' message =>
        obtain rfl := Option.some.inj hs
        have hpseudo : s''.pseudo = s'.pseudo := by
          rcases applyEvent_cases ha.2.2.2.1 with
            ⟨-, points, -, rfl, -⟩ | ⟨-, points, -, rfl, -⟩ | ⟨-, rfl, -⟩ | ⟨-, rfl, -⟩ <;> rfl
        rw [hpseudo]
        exact h.seen ha.1
    | score s' score =>
        obtain rfl := Option.some.inj hs
        exact h.seen (s := s') ha.1
    | flush pg clock s' ids db => cases hs
    | start t s' =>
        obtain rfl := Option.some.inj hs
        exact h.seen (s := s') ha.2.2.1
    | _ => exact h id s hs
  · rw [World.act_sessions_of_ne ha hid] at hs
    exact h id s hs

/-- A session is created with the normal form of a pseudo. -/
theorem normal_of_create {borneId : String} {e : Event} {s : Session}
    (ha : Act.create s ∈ e.acts borneId w) : NormalPseudo s.pseudo := by
  obtain ⟨request, clock, uuid, pg⟩ := e
  cases request with
  | createSession pseudo mode roomCode =>
      change _ ∈ createActs uuid clock.now pseudo mode roomCode w at ha
      unfold createActs at ha
      split at ha
      · next hpseudo =>
          obtain rfl := Act.create.inj (List.mem_singleton.mp ha)
          exact normalizeAndValidate_idem hpseudo
      · cases ha
  | intent action payload =>
      change _ ∈ intentActs uuid clock.now borneId action payload w at ha
      rcases mem_andThen ha with ha | ⟨w', rfl, ha⟩
      · cases mem_openActs ha
      · split at ha
        · unfold startGameActs at ha
          split at ha
          · split at ha
            · cases ha
            · split at ha
              · cases ha
              · next hpseudo =>
                  simp only [List.mem_cons, Act.create.injEq, List.not_mem_nil, reduceCtorEq,
                    or_false] at ha
                  rw [ha]
                  exact normalizeAndValidate_idem hpseudo
          · cases ha
        · split at ha
          · cases ha
          · cases List.mem_singleton.mp ha
  | _ =>
      rcases acts_yields ha with ⟨_, ⟨⟩, -⟩

theorem normalSessions_run {borneId : String} (hw : w.Sound) (h : w.NormalSessions)
    {evs : List Event}
    (hevs : Runs.Along (step borneId) (fun w e => e.Fresh w) w evs) :
    (evs.foldl (step borneId) w).NormalSessions :=
  (run_invariant (I := World.NormalSessions) (P := fun a => ∀ s, a = .create s → NormalPseudo s.pseudo)
    (D := fun _ _ => True) (fun _ _ _ hw ha hcreate => normalSessions_act hw ha hcreate)
    (fun _ _ _ _ ha _ hs => normal_of_create (hs ▸ ha)) hw h
    (hevs.mono fun _ _ he => ⟨he, trivial⟩)).2

end Sessions

/-! ## The requests -/

/-- A request that stores a player where there is none. -/
inductive PlayerRequest
  /-- `POST /players`. -/
  | createOrGetPlayer (raw : String)
  /-- The flush of a session and of the events of its buffer. -/
  | flush (clock : Clock) (s : Session) (events : List Dict)
  /-- `POST /games/start`, with the digits of the `uuid4` of a new room. -/
  | startGame (hex pseudo : String) (mode : GameMode) (roomCode : Option String)

namespace PlayerRequest

def prog : PlayerRequest → PgProg Unit
  | createOrGetPlayer raw => (PlayerExecution.createOrGetPlayer raw).prog
  | flush clock s events =>
      (PlayerExecution.persistFinishedSession clock.utcnow (s.finished clock events)).prog
  | startGame hex pseudo mode roomCode => (GameExecution.startGame hex pseudo mode roomCode).prog

/-- The session that is flushed is one that is read in a run from `w`. -/
def Received (w : World) : PlayerRequest → Prop
  | flush _ s _ => ∃ borneId evs, Runs.Along (step borneId) (fun w e => e.Fresh w) w evs ∧
      (evs.foldl (step borneId) w).seen s.sessionId = some s
  | _ => True

/-- The pseudo of a game that is started is in normal form, if it can be inserted. -/
def StartsNormal : PlayerRequest → Prop
  | startGame _ pseudo _ _ => fitsVarchar 50 pseudo → NormalPseudo pseudo
  | _ => True

end PlayerRequest

/-- A player that is inserted has a pseudo in normal form, if it can be inserted. -/
def PgCall.InsertsNormal : PgCall → Prop
  | stmt (.insertPlayer pseudo) => fitsVarchar 50 pseudo → NormalPseudo pseudo
  | _ => True

/-- The only player that a flush inserts is the one of the session. -/
theorem persistFinishedSession_insertsNormal (utcnow : DateTime) {s : FinishedSession}
    (hs : NormalPseudo s.pseudo) :
    (persistFinishedSession utcnow s).All fun stmt => (PgCall.stmt stmt).InsertsNormal := by
  refine Prog.All.bind (Prog.all_ofExcept _ _) fun rows => ?_
  have hwrite := writeFinishedSession_all (C := fun stmt => (PgCall.stmt stmt).InsertsNormal)
    (s := s) trivial (fun _ => hs) (fun _ => trivial) (fun _ _ => trivial) rows
  refine Prog.All.bind ((Prog.all_perform _ _).mpr trivial) fun _ => ?_
  refine Prog.All.bind (Prog.All.attempt ?_) fun r => ?_
  · refine Prog.All.bind ((Prog.all_perform _ _).mpr trivial) fun _ => ?_
    refine Prog.All.bind hwrite.attempt fun r => ?_
    cases r with
    | error e => exact Prog.All.bind ((Prog.all_perform _ _).mpr trivial) fun _ => trivial
    | ok ids => exact Prog.All.bind ((Prog.all_perform _ _).mpr trivial) fun _ => trivial
  · exact Prog.All.bind ((Prog.all_perform _ _).mpr trivial) fun _ => Prog.all_ofExcept _ r

theorem StartGame.execute_insertsNormal {hex pseudo : String} {mode : GameMode}
    {roomCode : Option String} (hpseudo : fitsVarchar 50 pseudo → NormalPseudo pseudo) :
    (StartGame.execute hex pseudo mode roomCode).All PgCall.InsertsNormal := by
  refine unitOfWork_all ?_ trivial trivial trivial trivial trivial
  refine (startPlayer_all trivial hpseudo).bind fun player => ?_
  refine (startRoom_all (fun _ => trivial) (fun _ => trivial) hex roomCode).bind fun room => ?_
  refine Prog.All.bind ((Prog.all_perform _ _).mpr trivial) fun game => ?_
  exact Prog.All.bind ((Prog.all_perform _ _).mpr trivial) fun event => trivial

/-- A request inserts players in normal form only, where a game that it starts has one. -/
theorem PlayerRequest.prog_insertsNormal {w : World} (hw : w.Sound) (hsessions : w.NormalSessions)
    {request : PlayerRequest} (hreceived : request.Received w) (hnormal : request.StartsNormal) :
    request.prog.All PgCall.InsertsNormal := by
  cases request with
  | createOrGetPlayer raw =>
      exact answering_all (createOrGetPlayer_all (fun _ _ => trivial)
        fun _ hraw _ => normalizeAndValidate_idem hraw) fun _ => trivial
  | flush clock s events =>
      obtain ⟨borneId, evs, hevs, hs⟩ := hreceived
      have hpseudo : NormalPseudo s.pseudo := (normalSessions_run hw hsessions hevs).seen hs
      exact answering_all ((persistFinishedSession_insertsNormal clock.utcnow
        (s := s.finished clock events) hpseudo).embed (f := PgCall.stmt) fun _ => id) fun _ => trivial
  | startGame hex pseudo mode roomCode =>
      exact answering_all (StartGame.execute_insertsNormal hnormal) fun _ => trivial

/-! ## The players -/

/-- The pseudos of the players are in normal form. -/
def Postgres.NormalPlayers (s : Postgres) : Prop :=
  ∀ x ∈ s.players.rows, NormalPseudo x.2.pseudo

theorem Postgres.NormalPlayers.of_rows {s s' : Postgres} (h : s.NormalPlayers)
    (hrows : s'.players.rows = s.players.rows) : s'.NormalPlayers :=
  fun x hx => h x (hrows ▸ hx)

theorem normalPlayers_serve {c : ℕ} {call : PgCall} {v : Server} (h : v.pg.NormalPlayers)
    (hcall : call.InsertsNormal) : (serve c call v).2.pg.NormalPlayers := by
  have hcommit : (v.pg.commit c).NormalPlayers := by
    intro x hx
    rcases TxTable.mem_commit.mp hx with ⟨hx, -⟩ | ⟨-, hx⟩
    · exact h x hx
    · exact h (some c, x.2) hx
  have hrollback : (v.pg.rollback c).NormalPlayers := fun x hx => h x (TxTable.mem_rollback.mp hx).1
  cases call with
  | stmt stmt =>
      cases stmt with
      | acquire => exact h
      | release => exact hrollback
      | start => exact h
      | commit => exact hcommit
      | rollback => exact hrollback
      | selectPlayerId pseudo => exact h
      | insertPlayer pseudo =>
          refine v.write_pg h fun id s hinsert => ?_
          obtain ⟨-, htables, -⟩ := Postgres.insertPlayer_ok hinsert
          simp only [Postgres.tables, Prod.mk.injEq] at htables
          intro x hx
          rw [htables.1] at hx
          rcases List.mem_append.mp hx with hx | hx
          · exact h x hx
          · rw [List.mem_singleton.mp hx]
            have hnormal : NormalPseudo pseudo := hcall (Postgres.insertPlayer_fits hinsert)
            rw [← varchar_of_isVarchar (isVarchar_of_normalize hnormal)] at hnormal
            exact hnormal
      | insertGame g =>
          refine v.write_pg h fun id s hid => ?_
          obtain ⟨⟨row, s'⟩, hinsert, heq⟩ := exists_of_map_ok hid
          obtain ⟨-, rfl⟩ := Prod.mk.inj heq
          obtain ⟨-, htables, -⟩ := Postgres.insertGame_ok hinsert
          exact h.of_rows (congrArg Prod.fst htables)
      | insertGameEvents gameId rows =>
          refine v.write_pg h fun u s hu => ?_
          obtain ⟨s', hinsert, heq⟩ := exists_of_map_ok hu
          obtain ⟨-, rfl⟩ := Prod.mk.inj heq
          exact h.of_rows (Postgres.insertGameEvents_ok hinsert).1
  | selectPlayer pseudo => exact h
  | selectRoom code => exact h
  | insertRoom code mode status =>
      refine v.write_pg h fun room s hinsert => ?_
      obtain ⟨-, htables, -⟩ := Postgres.insertRoom_ok hinsert
      exact h.of_rows (congrArg Prod.fst htables)
  | selectGame gameId => exact h
  | insertGame playerId roomId mode score status =>
      refine v.write_pg h fun row s hinsert => ?_
      obtain ⟨-, htables, -⟩ := Postgres.insertGame_ok hinsert
      exact h.of_rows (congrArg Prod.fst htables)
  | insertGameEvent gameId type points =>
      refine v.write_pg h fun e s hinsert => ?_
      obtain ⟨-, -, -, htables, -⟩ := Postgres.insertGameEvent_ok hinsert
      exact h.of_rows (congrArg Prod.fst htables)
  | addPoints gameId points =>
      refine v.write_pg h fun g s hadd => ?_
      obtain ⟨g₀, -, -, -, rfl⟩ := Postgres.addPoints_ok hadd
      exact h
  | finishGame gameId =>
      refine v.write_pg h fun g s hfinish => ?_
      obtain ⟨g₀, -, -, rfl⟩ := Postgres.finishGame_ok hfinish
      exact h
  | respond response => exact h

/-- The rows that texts with one normal form are looked up in are one row, where the
pseudos are in normal form. -/
theorem Postgres.NormalPlayers.unique {s : Postgres} (h : s.NormalPlayers) {raw raw' : String}
    (hraw : normalizeAndValidate raw = normalizeAndValidate raw') {x y : Option ℕ × PlayerRow}
    (hx : x ∈ s.players.rows) (hy : y ∈ s.players.rows) (hxraw : Resolves raw x.2)
    (hyraw : Resolves raw' y.2) : x = y := by
  have hnormal {text : String} {row : PlayerRow} (hrow : NormalPseudo row.pseudo)
      (htext : Resolves text row) : normalizeAndValidate text = .ok row.pseudo := by
    rcases htext with rfl | htext
    · exact hrow
    · exact htext
  have hsame : x.2.pseudo = y.2.pseudo :=
    Except.ok.inj ((hnormal (h x hx) hxraw).symm.trans (hraw.trans (hnormal (h y hy) hyraw)))
  exact List.inj_on_of_nodup_map s.players_pseudo hx hy hsame

/-- The requests only insert players in normal form, and those that are stored are. -/
abbrev PgPool.Normal (n : ℕ) (pool : PgPool) : Prop :=
  pool.Keeps (.steady (fun _ _ => True) PgCall.InsertsNormal) (fun _ => True) (fun i => i) n
    fun v _ => v.pg.NormalPlayers

theorem normalPlayers_run {s : Postgres} (hs : s.NormalPlayers) {requests : List PlayerRequest}
    (hrequests : ∀ request ∈ requests, request.prog.All PgCall.InsertsNormal)
    (schedule : List ℕ) :
    (schedule.foldl PgPool.step
      (PgPool.start s (requests.map PlayerRequest.prog))).state.pg.NormalPlayers := by
  have hstart : (PgPool.start s (requests.map PlayerRequest.prog)).Normal requests.length := by
    refine PgPool.keeps_start s (List.length_map _) (fun _ => ()) (fun i p hp => ?_) hs
    rw [List.getElem?_map] at hp
    obtain ⟨request, hrequest, rfl⟩ := Option.map_eq_some_iff.mp hp
    have hall := hrequests request (List.mem_of_getElem? hrequest)
    exact (Prog.Rests.of_all (fun _ hcall => ⟨hcall, fun _ _ => trivial⟩) hall).follows trivial trivial
  have hrun : (schedule.foldl PgPool.step
      (PgPool.start s (requests.map PlayerRequest.prog))).Normal requests.length :=
    Pool.run_keeps (C := fun _ _ _ => True) (fun _ _ _ => trivial)
      (fun _ _ _ _ _ _ h hcall _ _ _ => normalPlayers_serve h hcall) hstart
      (Runs.along_of_forall (fun _ _ _ _ => trivial) _ _)
  obtain ⟨-, -, phase, -, hnormal⟩ := hrun
  exact hnormal

/-- Where no player is stored at first, and whatever the order in which the calls of the
requests are made, every player is stored under a pseudo in normal form, and texts with
one normal form are looked up in one row: if the pseudos of the games that are started
are in normal form. -/
theorem players_normal (db : Database) {s : Postgres} (hempty : s.players.rows = [])
    {requests : List PlayerRequest}
    (hreceived : ∀ request ∈ requests, request.Received { db })
    (hnormal : ∀ request ∈ requests, request.StartsNormal) (schedule : List ℕ) :
    let pool := schedule.foldl PgPool.step (PgPool.start s (requests.map PlayerRequest.prog))
    (∀ x ∈ pool.state.pg.players.rows, NormalPseudo x.2.pseudo) ∧
      ∀ raw raw' x y, normalizeAndValidate raw = normalizeAndValidate raw' →
        x ∈ pool.state.pg.players.rows → y ∈ pool.state.pg.players.rows →
        Resolves raw x.2 → Resolves raw' y.2 → x = y := by
  intro pool
  have hs : s.NormalPlayers := fun x hx => by
    rw [hempty] at hx
    cases hx
  have hsessions : World.NormalSessions { db } := fun id s hs => by cases hs
  have hplayers : pool.state.pg.NormalPlayers := normalPlayers_run hs (fun request hrequest =>
    PlayerRequest.prog_insertsNormal (.init db) hsessions (hreceived request hrequest)
      (hnormal request hrequest)) schedule
  exact ⟨hplayers, fun raw raw' x y hraw hx hy hxraw hyraw =>
    hplayers.unique hraw hx hy hxraw hyraw⟩

/-- A pseudo that is looked up as it was written, beside its normal form. -/
theorem players_normal_started :
    let session := newSession "s" default "ABC" .solo none
    let requests : List PlayerRequest :=
      [.createOrGetPlayer "abc", .flush default session [], .startGame "0123456789" "ABC" .solo none]
    let pool := (List.replicate 3 0 ++ List.replicate 9 1 ++ List.replicate 9 2).foldl PgPool.step
      (PgPool.start { clock := fun _ => default } (requests.map PlayerRequest.prog))
    pool.state.pg.games.rows.length = 2 ∧
      (∀ x ∈ pool.state.pg.players.rows, NormalPseudo x.2.pseudo) ∧
      ∀ x y, x ∈ pool.state.pg.players.rows → y ∈ pool.state.pg.players.rows →
        Resolves "abc" x.2 → Resolves "ABC" y.2 → x = y := by
  intro session requests
  have hgames : ((List.replicate 3 0 ++ List.replicate 9 1 ++ List.replicate 9 2).foldl PgPool.step
      (PgPool.start { clock := fun _ => default }
        (requests.map PlayerRequest.prog))).state.pg.games.rows.length = 2 := by
    decide +kernel
  have hnormal : NormalPseudo "ABC" := by
    unfold NormalPseudo
    decide +kernel
  have hreceived : ∀ request ∈ requests, request.Received {} := by
    simp only [requests, List.forall_mem_cons, List.not_mem_nil, false_imp_iff, implies_true,
      and_true]
    refine ⟨trivial, ⟨"b", [{ request := .createSession "abc" .solo none, uuid := "s" }], ?_, ?_⟩,
      trivial⟩
    · decide +kernel
    · decide +kernel
  have hstarts : ∀ request ∈ requests, request.StartsNormal := by
    simp only [requests, List.forall_mem_cons, List.not_mem_nil, false_imp_iff, implies_true,
      and_true]
    exact ⟨trivial, trivial, fun _ => hnormal⟩
  have hplayers := players_normal {} (s := { clock := fun _ => default }) rfl hreceived hstarts
    (List.replicate 3 0 ++ List.replicate 9 1 ++ List.replicate 9 2)
  have hsame : normalizeAndValidate "abc" = normalizeAndValidate "ABC" := by decide +kernel
  exact ⟨hgames, hplayers.1, fun x y => hplayers.2 "abc" "ABC" x y hsame⟩

/-- A player, and a game that is started under the same pseudo in lower case. -/
theorem startGame_lowercase :
    ¬ ∀ (db : Database) (s : Postgres) (requests : List PlayerRequest) (schedule : List ℕ),
      s.players.rows = [] → (∀ request ∈ requests, request.Received { db }) →
      let pool := schedule.foldl PgPool.step (PgPool.start s (requests.map PlayerRequest.prog))
      (∀ x ∈ pool.state.pg.players.rows, NormalPseudo x.2.pseudo) ∧
        ∀ raw raw' x y, normalizeAndValidate raw = normalizeAndValidate raw' →
          x ∈ pool.state.pg.players.rows → y ∈ pool.state.pg.players.rows →
          Resolves raw x.2 → Resolves raw' y.2 → x = y := by
  intro h
  let requests : List PlayerRequest :=
    [.createOrGetPlayer "abc", .startGame "0123456789" "abc" .solo none]
  have hreceived : ∀ request ∈ requests, request.Received {} := by
    simp [requests, PlayerRequest.Received]
  have hrows : ((List.replicate 3 0 ++ List.replicate 9 1).foldl PgPool.step
      (PgPool.start { clock := fun _ => default }
        (requests.map PlayerRequest.prog))).state.pg.players.rows =
      [(none, { id := 1, pseudo := "ABC" }), (none, { id := 2, pseudo := "abc" })] := by
    decide +kernel
  obtain ⟨hplayers, -⟩ := h {} { clock := fun _ => default } requests
    (List.replicate 3 0 ++ List.replicate 9 1) rfl hreceived
  rw [hrows] at hplayers
  have hlower : NormalPseudo "abc" := hplayers (none, { id := 2, pseudo := "abc" }) (by simp)
  have hupper : normalizeAndValidate "abc" = .ok "ABC" := by decide +kernel
  rw [NormalPseudo, hupper] at hlower
  exact absurd (Except.ok.inj hlower) (by decide)

end FlipperBack
