import FlipperBack.Properties.Told
import FlipperBack.System.Works

/-!
# What an execution writes

What each execution of the REST flow has written, as works, at any time and where it has
been answered: a game with its first event, its player and its room as one work, a
finished session with all its events as one work, any other row by itself. `Ledger` is
what an execution has written so far; the protocol `recording` says that each execution
keeps to what it may write.
-/

namespace FlipperBack

open Effects Python

/-! ## What an execution writes -/

/-- A player of the pseudo: one that is stored before, or the one of the rows that are
inserted, whose pseudo is cut to its column. -/
def Player.IsOf (pseudo : String) (players : List PlayerRow) (p : Player) : Prop :=
  players = [] ∧ p.pseudo = pseudo ∨
    players = [{ id := p.id, pseudo := p.pseudo }] ∧ p.pseudo = varchar 50 pseudo

/-- The rows of a game that has been started; the player and the room are inserted with
it or stored before. -/
structure Started.Whole (S : Fact → Prop) (hex pseudo : String) (mode : GameMode)
    (roomCode : Option String) (st : Started) (rows : Rows) : Prop where
  players : st.player.IsOf pseudo rows.players
  player : S (.player st.player)
  rooms : if roomCode.getD "" = "" then
      rows.rooms = [st.room] ∧ st.room.code = upper (String.ofList (hex.toList.take 6)) ∧
        st.room.mode = mode ∧ st.room.status = .waiting
    else rows.rooms = [] ∧ st.room.code = roomCode.getD ""
  room : S (.room st.room)
  games : rows.games = [st.game]
  game : st.game.playerId = st.player.id ∧ st.game.roomId = some st.room.id ∧
    st.game.mode = mode ∧ st.game.score = 0 ∧ st.game.status = .playing ∧
    st.game.finishedAt = none
  events : rows.events = [st.event.note]
  event : st.event.gameId = st.game.id ∧ st.event.type = .gameStarted ∧ st.event.points = 0

/-- The rows of a finished session, of the keys and the count that are returned. -/
structure FinishedSession.Whole (S : Fact → Prop) (utcnow : DateTime) (s : FinishedSession)
    (r : ℕ × ℕ × ℕ) (rows : Rows) : Prop where
  player : ∃ p : Player, p.id = r.1 ∧ p.IsOf s.pseudo rows.players ∧ S (.player p)
  rooms : rows.rooms = []
  games : rows.games =
    [{ id := r.2.1, playerId := r.1, roomId := none, mode := s.mode, score := s.score.val,
       status := .finished, startedAt := s.startedAt.naive, finishedAt := some s.finishedAt.naive }]
  events : ∃ eventRows, buildEventRows utcnow s.events = .ok eventRows ∧
    rows.events = eventRows.map (fun row => (r.2.1, row)) ∧ r.2.2 = eventRows.length

/-- The event of an execution on a game. -/
structure GameEventRow.IsOf (gameId : ℤ) (type : GameEventType) (points : ℤ) (e : GameEventRow) :
    Prop where
  game : (e.gameId : ℤ) = gameId
  type : e.type = type
  points : e.points = points

/-- The work of one event. -/
def GameEventRow.work (e : GameEventRow) : Work :=
  .insert { Rows.empty with events := [e.note] }

/-- The work of one player. -/
def Player.work (p : Player) : Work :=
  .insert { Rows.empty with players := [{ id := p.id, pseudo := p.pseudo }] }

/-- A room that has been created. -/
structure RoomRow.IsNew (hex : String) (mode : GameMode) (room : RoomRow) : Prop where
  code : room.code = upper (String.ofList (hex.toList.take 6))
  mode : room.mode = mode
  status : room.status = .waiting

/-- The work of one room. -/
def RoomRow.work (room : RoomRow) : Work :=
  .insert { Rows.empty with rooms := [room] }

/-- What an execution has written at any time, of what is stored for everyone. -/
def RestExecution.Wrote (S : Fact → Prop) (works : List Work) : RestExecution → Prop
  | .game (.startGame hex pseudo mode roomCode) =>
      works = [] ∨ ∃ st rows, works = [.insert rows] ∧ Started.Whole S hex pseudo mode roomCode st rows
  | .game (.addGameEvent gameId type points) =>
      works = [] ∨ ∃ e : GameEventRow, e.IsOf gameId type points ∧
        (works = [e.work] ∨ 0 < points ∧ works = [e.work, .addPoints gameId points])
  | .game (.finishGame gameId) =>
      works = [] ∨ ∃ finishedAt, works = [.finish gameId finishedAt] ∨
        ∃ e : GameEventRow, e.IsOf gameId .gameOver 0 ∧ works = [.finish gameId finishedAt, e.work]
  | .player (.createOrGetPlayer rawPseudo) =>
      works = [] ∨ ∃ p : Player, works = [p.work] ∧ normalizeAndValidate rawPseudo = .ok p.pseudo
  | .player (.persistFinishedSession utcnow s) =>
      works = [] ∨ ∃ r rows, works = [.insert rows] ∧ s.Whole S utcnow r rows
  | .createRoom hex mode => works = [] ∨ ∃ room : RoomRow, works = [room.work] ∧ room.IsNew hex mode
  | .read _ => works = []

/-- What an execution is answered. -/
inductive Answer
  | response (r : Response)
  | view (v : View)

/-- What an execution has written where it has been answered. -/
def RestExecution.Accounts (S : Fact → Prop) (works : List Work) : RestExecution → Answer → Prop
  | .game (.startGame hex pseudo mode roomCode), .response (.started (.ok st)) =>
      ∃ rows, works = [.insert rows] ∧ st.Whole S hex pseudo mode roomCode rows
  | .game (.startGame _ _ _ _), .response (.started (.error _)) => works = []
  | .game (.addGameEvent gameId type points), .response (.added (.ok (_, e))) =>
      e.IsOf gameId type points ∧
        works = e.work :: if 0 < points then [.addPoints gameId points] else []
  | .game (.addGameEvent _ _ _), .response (.added (.error e)) => e.Refuses → works = []
  | .game (.finishGame gameId), .response (.finished (.ok (g, e))) =>
      e.IsOf gameId .gameOver 0 ∧ works = [.finish gameId g.finishedAt, e.work]
  | .game (.finishGame _), .response (.finished (.error e)) => e.Refuses → works = []
  | .player (.createOrGetPlayer rawPseudo), .response (.player (.ok p)) =>
      normalizeAndValidate rawPseudo = .ok p.pseudo ∧ S (.player p) ∧
        (works = [] ∨ works = [p.work])
  | .player (.createOrGetPlayer _), .response (.player (.error _)) => works = []
  | .player (.persistFinishedSession utcnow s), .response (.persisted (.ok r)) =>
      ∃ rows, works = [.insert rows] ∧ s.Whole S utcnow r rows
  | .player (.persistFinishedSession _ _), .response (.persisted (.error _)) => works = []
  | .createRoom hex mode, .view (.created (.ok room)) => works = [room.work] ∧ room.IsNew hex mode
  | .createRoom _ _, .view (.created (.error _)) => works = []
  | .read _, .view _ => works = []
  | _, _ => False

section Mono

variable {S S' : Fact → Prop} {works : List Work} {exec : RestExecution}

theorem Started.Whole.mono {hex pseudo : String} {mode : GameMode} {roomCode : Option String}
    {st : Started} {rows : Rows} (h : st.Whole S hex pseudo mode roomCode rows)
    (hS : ∀ x, S x → S' x) : st.Whole S' hex pseudo mode roomCode rows :=
  { h with player := hS _ h.player, room := hS _ h.room }

theorem FinishedSession.Whole.mono {utcnow : DateTime} {s : FinishedSession} {r : ℕ × ℕ × ℕ}
    {rows : Rows} (h : s.Whole S utcnow r rows) (hS : ∀ x, S x → S' x) : s.Whole S' utcnow r rows :=
  have ⟨p, hid, hof, hp⟩ := h.player
  { h with player := ⟨p, hid, hof, hS _ hp⟩ }

theorem RestExecution.wrote_nil (exec : RestExecution) : exec.Wrote S [] := by
  cases exec with
  | game exec => cases exec <;> exact Or.inl rfl
  | player exec => cases exec <;> exact Or.inl rfl
  | createRoom hex mode => exact Or.inl rfl
  | read exec => rfl

theorem RestExecution.Wrote.mono (h : exec.Wrote S works) (hS : ∀ x, S x → S' x) :
    exec.Wrote S' works := by
  cases exec with
  | game exec =>
      cases exec with
      | startGame hex pseudo mode roomCode =>
          refine h.imp_right ?_
          rintro ⟨st, rows, hworks, hwhole⟩
          exact ⟨st, rows, hworks, hwhole.mono hS⟩
      | addGameEvent gameId type points => exact h
      | finishGame gameId => exact h
  | player exec =>
      cases exec with
      | createOrGetPlayer rawPseudo => exact h
      | persistFinishedSession utcnow s =>
          refine h.imp_right ?_
          rintro ⟨r, rows, hworks, hwhole⟩
          exact ⟨r, rows, hworks, hwhole.mono hS⟩
  | createRoom hex mode => exact h
  | read exec => exact h

theorem RestExecution.Accounts.mono {a : Answer} (h : exec.Accounts S works a)
    (hS : ∀ x, S x → S' x) : exec.Accounts S' works a := by
  unfold Accounts at h ⊢
  split at h
  · obtain ⟨rows, hworks, hwhole⟩ := h
    exact ⟨rows, hworks, hwhole.mono hS⟩
  · exact h
  · exact h
  · exact h
  · exact h
  · exact h
  · exact ⟨h.1, hS _ h.2.1, h.2.2⟩
  · exact h
  · obtain ⟨rows, hworks, hwhole⟩ := h
    exact ⟨rows, hworks, hwhole.mono hS⟩
  · exact h
  · exact h
  · exact h
  · exact h
  · exact h.elim

end Mono

/-! ## What an execution has written so far -/

/-- What an execution has read and written, the rows of its open transaction apart from what
is stored for everyone, and what it has been answered. -/
structure Ledger where
  exec : Option RestExecution
  inTx : Bool := false
  seen : List Fact := []
  pending : Rows := Rows.empty
  works : List Work := []
  answer : Option Answer := none

/-- What a call answers the client of its execution. -/
def PgCall.answer : PgCall → Option Answer
  | respond response => some (.response response)
  | _ => none

def PgCall.commits : PgCall → Bool
  | stmt .commit => true
  | _ => false

namespace Ledger

/-- It has written what its execution may have written so far. -/
structure Sound (q : Ledger) : Prop where
  wrote : ∀ exec, q.exec = some exec → exec.Wrote (· ∈ q.seen) q.works
  inTx : q.inTx = true → q.works = []

def Accounts (q : Ledger) (a : Answer) : Prop :=
  q.inTx = false ∧ ∀ exec, q.exec = some exec → exec.Accounts (· ∈ q.seen) q.works a

def Allows (q : Ledger) : PgCall → Prop
  | .respond response => q.Accounts (.response response)
  | .addPoints _ points => q.inTx = false ∧ 0 < points
  | .finishGame _ => q.inTx = false
  | _ => True

def after (q : Ledger) (call : PgCall) (r : Except Exc call.Res) : Ledger where
  exec := q.exec
  inTx := call.inTxAfter q.inTx
  seen := (if call.drops && q.inTx then [] else q.seen) ++ call.facts r
  pending := if call.inTxAfter q.inTx then q.pending.append (call.inserts r) else Rows.empty
  works :=
    if q.inTx then if call.commits then q.works ++ [.insert q.pending] else q.works
    else q.works ++ (call.inserts r).works ++ call.updates r
  answer := call.answer

/-- An execution in a transaction, which it has started with. -/
structure Open (q : Ledger) : Prop where
  inTx : q.inTx = true
  works : q.works = []
  answer : q.answer = none

/-- The rows are added to the open transaction, and the facts are seen. -/
structure Adds (q q' : Ledger) (rows : Rows) (facts : List Fact) : Prop where
  opened : q'.Open
  exec : q'.exec = q.exec
  pending : q'.pending = q.pending.append rows
  seen : ∀ x, x ∈ q.seen ∨ x ∈ facts → x ∈ q'.seen

/-- An execution outside transactions has written the works `W` and seen the facts
`K`. -/
structure At (exec : RestExecution) (W : List Work) (K : List Fact) (q : Ledger) : Prop where
  exec : q.exec = some exec
  inTx : q.inTx = false
  works : q.works = W
  seen : ∀ x ∈ K, x ∈ q.seen
  pending : q.pending = Rows.empty
  answer : q.answer = none

end Ledger

def recording : Protocol Exc PgCall.Res Ledger where
  allowed q call := q.answer = none ∧ q.Sound ∧ q.Allows call
  answers call r := call.Returns r ∧ Unrefused r
  next q call r q' := q' = q.after call r

/-- The protocol of the statements. -/
def recordingStmts : Protocol Exc Stmt.Res Ledger where
  allowed q stmt := recording.allowed q (.stmt stmt)
  answers stmt r := recording.answers (.stmt stmt) r
  next q stmt r q' := recording.next q (.stmt stmt) r q'

def restRecording : Protocol Exc RestOp.Res Ledger where
  allowed q op := q.answer = none ∧ q.Sound ∧
    match op with
    | .pg call => q.Allows call
    | .view view => q.Accounts (.view view)
    | _ => q.inTx = false
  answers
    | .pg call, r => call.Returns r ∧ Unrefused r
    | _, _ => True
  next q
    | .pg call, r, q' => q' = q.after call r
    | .view view, _, q' => q' = { q with answer := some (.view view) }
    | _, _, q' => q' = q

section Calls

variable {call : PgCall} {q : Ledger}

theorem inserts_error (call : PgCall) (e : Exc) : call.inserts (.error e) = Rows.empty := by
  cases call with
  | stmt s => cases s <;> rfl
  | _ => rfl

theorem updates_error (call : PgCall) (e : Exc) : call.updates (.error e) = [] := by
  cases call <;> rfl

theorem facts_error (call : PgCall) (e : Exc) : call.facts (.error e) = [] := by
  cases call with
  | stmt s => cases s <;> rfl
  | _ => rfl

/-- A call that neither starts nor ends a transaction leaves what has been read. -/
theorem plain_of_not_bounds (hbounds : ¬ call.Bounds) (inTx : Bool) :
    call.inTxAfter inTx = inTx ∧ call.drops = false ∧ call.commits = false := by
  cases call with
  | stmt s =>
      cases s with
      | start => exact (hbounds trivial).elim
      | commit => exact (hbounds trivial).elim
      | rollback => exact (hbounds trivial).elim
      | release => exact (hbounds trivial).elim
      | _ => exact ⟨rfl, rfl, rfl⟩
  | _ => exact ⟨rfl, rfl, rfl⟩

theorem Ledger.allows_of_not_updates (hupdates : ¬ call.Updates) (hanswer : call.answer = none) :
    q.Allows call := by
  cases call with
  | addPoints gameId points => exact (hupdates trivial).elim
  | finishGame gameId => exact (hupdates trivial).elim
  | respond response => cases hanswer
  | _ => trivial

theorem Ledger.Open.sound (hq : q.Open) : q.Sound := by
  refine ⟨fun exec _ => ?_, fun _ => hq.works⟩
  rw [hq.works]
  exact exec.wrote_nil

theorem Ledger.Open.after (hq : q.Open) (hbounds : ¬ call.Bounds) (hanswer : call.answer = none)
    (r : Except Exc call.Res) : q.Adds (q.after call r) (call.inserts r) (call.facts r) := by
  obtain ⟨hinTx, hdrops, hcommits⟩ := plain_of_not_bounds hbounds q.inTx
  refine ⟨⟨hinTx.trans hq.inTx, ?_, hanswer⟩, rfl, ?_, fun x hx => ?_⟩
  · simp [Ledger.after, hq.inTx, hcommits, hq.works]
  · exact if_pos (hinTx.trans hq.inTx)
  · simpa [Ledger.after, hdrops] using hx

theorem Ledger.At.sound {exec : RestExecution} {W : List Work} {K : List Fact}
    (hq : q.At exec W K) (hwrote : exec.Wrote (· ∈ K) W) : q.Sound := by
  refine ⟨fun exec' hexec => ?_, fun htx => ?_⟩
  · obtain rfl := Option.some.inj (hq.exec.symm.trans hexec)
    rw [hq.works]
    exact hwrote.mono hq.seen
  · cases hq.inTx.symm.trans htx

theorem Ledger.At.accounts {exec : RestExecution} {W : List Work} {K : List Fact} {a : Answer}
    (hq : q.At exec W K) (haccounts : exec.Accounts (· ∈ K) W a) : q.Accounts a := by
  refine ⟨hq.inTx, fun exec' hexec => ?_⟩
  obtain rfl := Option.some.inj (hq.exec.symm.trans hexec)
  rw [hq.works]
  exact haccounts.mono hq.seen

theorem Ledger.At.after {exec : RestExecution} {W : List Work} {K : List Fact}
    (hq : q.At exec W K) (hbounds : ¬ call.Bounds) (hanswer : call.answer = none)
    (r : Except Exc call.Res) :
    (q.after call r).At exec (W ++ (call.inserts r).works ++ call.updates r)
      (K ++ call.facts r) := by
  obtain ⟨hinTx, hdrops, -⟩ := plain_of_not_bounds hbounds q.inTx
  refine ⟨hq.exec, hinTx.trans hq.inTx, ?_, fun x hx => ?_, ?_, hanswer⟩
  · simp [Ledger.after, hq.inTx, hq.works]
  · have hx := (List.mem_append.mp hx).imp_left (hq.seen x)
    simpa [Ledger.after, hdrops] using hx
  · exact if_neg fun h => by cases (hinTx.trans hq.inTx).symm.trans h

end Calls

/-! ## Inside a transaction -/

/-- A program inside a transaction adds rows to it and sees facts: those that `R` says of
what it returns. -/
def InTx {Op : Type} {Res : Op → Type} {α : Type} (P : Protocol Exc Res Ledger)
    (p : Prog Exc Res α) (R : α → Rows → List Fact → Prop) : Prop :=
  ∀ q : Ledger, q.Open → p.Yields P (fun q' a => ∃ rows facts, q.Adds q' rows facts ∧ R a rows facts)
    (fun q' _ => q'.Open ∧ q'.exec = q.exec) q

namespace InTx

variable {Op : Type} {Res : Op → Type} {P : Protocol Exc Res Ledger} {α β : Type}
  {R : α → Rows → List Fact → Prop}

theorem pure {a : α} (h : R a Rows.empty []) : InTx P (pure a : Prog Exc Res α) R := by
  refine fun q hq => ⟨Rows.empty, [], ⟨hq, rfl, (Rows.append_empty _).symm, fun x hx => ?_⟩, h⟩
  exact hx.resolve_right List.not_mem_nil

theorem throw {e : Exc} : InTx P (throw e : Prog Exc Res α) R :=
  fun _ hq => ⟨hq, rfl⟩

theorem bind {p : Prog Exc Res α} {f : α → Prog Exc Res β} {T : α → β → Rows → List Fact → Prop}
    {V : β → Rows → List Fact → Prop} (hp : InTx P p R) (hf : ∀ a, InTx P (f a) (T a))
    (h : ∀ a b rows rows' facts facts', R a rows facts → T a b rows' facts' →
      V b (rows.append rows') (facts ++ facts')) : InTx P (p >>= f) V := by
  refine fun q hq => (hp q hq).bind fun q' a hq' => ?_
  obtain ⟨rows, facts, hadds, hR⟩ := hq'
  refine (hf a q' hadds.opened).mono (fun q'' b hq'' => ?_) fun q'' e hq'' => ?_
  · obtain ⟨rows', facts', hadds', hT⟩ := hq''
    refine ⟨rows.append rows', facts ++ facts', ⟨hadds'.opened, hadds'.exec.trans hadds.exec, ?_,
      fun x hx => ?_⟩, h a b rows rows' facts facts' hR hT⟩
    · rw [hadds'.pending, hadds.pending]
      simp [Rows.append]
    · refine hadds'.seen x ?_
      rcases hx with hx | hx
      · exact Or.inl (hadds.seen x (Or.inl hx))
      · exact (List.mem_append.mp hx).imp_left fun hx => hadds.seen x (Or.inr hx)
  · exact ⟨hq''.1, hq''.2.trans hadds.exec⟩

theorem mono {R' : α → Rows → List Fact → Prop} {p : Prog Exc Res α} (hp : InTx P p R)
    (h : ∀ a rows facts, R a rows facts → R' a rows facts) : InTx P p R' := by
  refine fun q hq => (hp q hq).mono (fun q' a hq' => ?_) fun _ _ hq' => hq'
  obtain ⟨rows, facts, hadds, hR⟩ := hq'
  exact ⟨rows, facts, hadds, h a rows facts hR⟩

/-- An error that is turned into another one. -/
theorem tryCatch {p : Prog Exc Res α} {f : Exc → Prog Exc Res α} (hp : InTx P p R)
    (hf : ∀ e, ∃ e', f e = MonadExcept.throw e') : InTx P (MonadExcept.tryCatch p f) R := by
  refine fun q hq => (hp q hq).tryCatch fun q' e hq' => ?_
  obtain ⟨e', he'⟩ := hf e
  rw [he']
  exact hq'

end InTx

/-- What a call inside a transaction has added and seen. -/
def PgCall.Added (call : PgCall) (a : call.Res) (rows : Rows) (facts : List Fact) : Prop :=
  call.Returns (.ok a) ∧ rows = call.inserts (.ok a) ∧ facts = call.facts (.ok a)

theorem inTx_perform {call : PgCall} (hbounds : ¬ call.Bounds) (hupdates : ¬ call.Updates)
    (hanswer : call.answer = none) : InTx recording (pg call) call.Added := by
  intro q hq
  refine Prog.Yields.perform ⟨hq.answer, hq.sound, Ledger.allows_of_not_updates hupdates hanswer⟩
    (fun a ha => ⟨_, rfl, _, _, hq.after hbounds hanswer _, ha.1, rfl, rfl⟩)
    fun e _ => ⟨_, rfl, (hq.after hbounds hanswer _).opened, rfl⟩

theorem inTx_query {stmt : Stmt} (hbounds : ¬ (PgCall.stmt stmt).Bounds) :
    InTx recordingStmts (query stmt) (PgCall.stmt stmt).Added := by
  intro q hq
  refine Prog.Yields.perform ⟨hq.answer, hq.sound, trivial⟩
    (fun a ha => ⟨_, rfl, _, _, hq.after hbounds rfl _, ha.1, rfl, rfl⟩)
    fun e _ => ⟨_, rfl, (hq.after hbounds rfl _).opened, rfl⟩

/-! ### A game that is started -/

/-- The player of a new game. -/
def Started.WithPlayer (pseudo : String) (p : Player) (rows : Rows) (facts : List Fact) : Prop :=
  .player p ∈ facts ∧ p.IsOf pseudo rows.players ∧
    rows = { Rows.empty with players := rows.players }

theorem inTx_createPlayer (pseudo : String) :
    InTx recording (PgPlayerRepository.create pseudo) (Started.WithPlayer pseudo) := by
  refine InTx.tryCatch (InTx.bind (inTx_perform id id rfl)
    (T := fun id p rows facts => p = { id, pseudo := varchar 50 pseudo } ∧ rows = Rows.empty ∧
      facts = [])
    (fun id => InTx.pure ⟨rfl, rfl, rfl⟩) ?_) ?_
  · rintro id _ _ _ _ _ ⟨-, rfl, rfl⟩ ⟨rfl, rfl, rfl⟩
    exact ⟨List.mem_cons_self, Or.inr ⟨rfl, rfl⟩, rfl⟩
  · intro e
    split <;> exact ⟨_, rfl⟩

theorem inTx_startPlayer (pseudo : String) :
    InTx recording (startPlayer pseudo) (Started.WithPlayer pseudo) := by
  refine InTx.bind (inTx_perform id id rfl)
    (T := fun found p rows facts => found = some p ∧ rows = Rows.empty ∧ facts = [] ∨
      found = none ∧ Started.WithPlayer pseudo p rows facts) (fun found => ?_) ?_
  · cases found with
    | some p => exact InTx.pure (Or.inl ⟨rfl, rfl, rfl⟩)
    | none => exact (inTx_createPlayer pseudo).mono fun _ _ _ h => Or.inr ⟨rfl, h⟩
  · rintro found p _ rows' _ facts' ⟨hreturns, rfl, rfl⟩ (⟨rfl, rfl, rfl⟩ | ⟨rfl, hnew⟩)
    · exact ⟨List.mem_cons_self, Or.inl ⟨rfl, hreturns⟩, rfl⟩
    · exact ⟨List.mem_append_right _ hnew.1, hnew.2⟩

/-- The room of a new game. -/
def Started.WithRoom (hex : String) (mode : GameMode) (roomCode : Option String) (room : RoomRow)
    (rows : Rows) (facts : List Fact) : Prop :=
  .room room ∈ facts ∧
    if roomCode.getD "" = "" then rows = { Rows.empty with rooms := [room] } ∧ room.IsNew hex mode
    else rows = Rows.empty ∧ room.code = roomCode.getD ""

theorem inTx_startRoom (hex : String) (mode : GameMode) (roomCode : Option String) :
    InTx recording (startRoom hex mode roomCode) (Started.WithRoom hex mode roomCode) := by
  unfold startRoom
  dsimp only
  split
  · next hcode =>
      refine (inTx_perform id id rfl).mono ?_
      rintro room rows facts ⟨hreturns, rfl, rfl⟩
      refine ⟨List.mem_cons_self, ?_⟩
      rw [if_pos hcode]
      exact ⟨rfl, hreturns.1, hreturns.2.1, hreturns.2.2⟩
  · next hcode =>
      refine InTx.bind (inTx_perform id id rfl)
        (T := fun found room rows facts => found = some room ∧ rows = Rows.empty ∧ facts = [])
        (fun found => ?_) ?_
      · cases found with
        | some room => exact InTx.pure ⟨rfl, rfl, rfl⟩
        | none => exact InTx.throw
      · rintro found room _ _ _ _ ⟨hreturns, rfl, rfl⟩ ⟨rfl, rfl, rfl⟩
        refine ⟨List.mem_cons_self, ?_⟩
        rw [if_neg hcode]
        exact ⟨rfl, hreturns⟩

theorem inTx_startBody (hex pseudo : String) (mode : GameMode) (roomCode : Option String) :
    InTx recording (startBody hex pseudo mode roomCode)
      fun st rows facts => st.Whole (· ∈ facts) hex pseudo mode roomCode rows := by
  have hevent (player : Player) (room : RoomRow) (game : GameRow) : InTx recording (do
      let event ← PgGameEventRepository.create game.id .gameStarted 0
      return { player, room, game, event }) fun (st : Started) rows _ =>
        st.player = player ∧ st.room = room ∧ st.game = game ∧ st.event.IsOf game.id .gameStarted 0 ∧
          rows = { Rows.empty with events := [st.event.note] } := by
    refine InTx.bind (inTx_perform id id rfl)
      (T := fun event st rows facts => st = { player, room, game, event } ∧ rows = Rows.empty ∧
        facts = []) (fun event => InTx.pure ⟨rfl, rfl, rfl⟩) ?_
    rintro event _ _ _ _ _ ⟨hreturns, rfl, rfl⟩ ⟨rfl, rfl, rfl⟩
    exact ⟨rfl, rfl, rfl, ⟨hreturns.1, hreturns.2.1, hreturns.2.2⟩, rfl⟩
  have hgame (player : Player) (room : RoomRow) : InTx recording (do
      let game ← PgGameRepository.create player.id (some room.id) mode
      let event ← PgGameEventRepository.create game.id .gameStarted 0
      return { player, room, game, event }) fun (st : Started) rows _ =>
        st.player = player ∧ st.room = room ∧
          (PgCall.insertGame player.id (some room.id) mode 0 .playing).Returns (.ok st.game) ∧
          st.event.IsOf st.game.id .gameStarted 0 ∧
          rows = { Rows.empty with games := [st.game], events := [st.event.note] } := by
    refine InTx.bind (inTx_perform id id rfl) (hevent player room) ?_
    rintro game st _ _ _ _ ⟨hreturns, rfl, rfl⟩ ⟨hplayer, hroom, rfl, hevent, rfl⟩
    exact ⟨hplayer, hroom, hreturns, hevent, rfl⟩
  refine InTx.bind (inTx_startPlayer pseudo)
    (T := fun player st rows facts => st.player = player ∧ ∃ roomRows,
      Started.WithRoom hex mode roomCode st.room roomRows facts ∧
      (PgCall.insertGame player.id (some st.room.id) mode 0 .playing).Returns (.ok st.game) ∧
      st.event.IsOf st.game.id .gameStarted 0 ∧
      rows = roomRows.append { Rows.empty with games := [st.game], events := [st.event.note] })
    (fun player => InTx.bind (inTx_startRoom hex mode roomCode) (hgame player) ?_) ?_
  · rintro room st rows _ facts _ hroom ⟨hplayer, rfl, hgame, hevent, rfl⟩
    exact ⟨hplayer, rows, ⟨List.mem_append_left _ hroom.1, hroom.2⟩, hgame, hevent, rfl⟩
  · rintro player st playerRows _ _ _ ⟨hmem, hof, hplayerRows⟩
      ⟨rfl, roomRows, ⟨hroom, hroomRows⟩, hgame, hevent, rfl⟩
    have hplayers : playerRows.rooms = [] ∧ playerRows.games = [] ∧ playerRows.events = [] := by
      rw [hplayerRows]
      exact ⟨rfl, rfl, rfl⟩
    have hrooms : roomRows.players = [] ∧ roomRows.games = [] ∧ roomRows.events = [] := by
      split at hroomRows <;> obtain ⟨rfl, -⟩ := hroomRows <;> exact ⟨rfl, rfl, rfl⟩
    refine
      { players := ?_
        player := List.mem_append_left _ hmem
        rooms := ?_
        room := List.mem_append_right _ hroom
        games := by simp [Rows.append, Rows.empty, hplayers, hrooms]
        game := hgame
        events := by simp [Rows.append, Rows.empty, hplayers, hrooms]
        event := ⟨Int.natCast_inj.mp hevent.game, hevent.type, hevent.points⟩ }
    · simpa [Rows.append, Rows.empty, hrooms] using hof
    · split at hroomRows
      · next hcode =>
          obtain ⟨rfl, hnew⟩ := hroomRows
          rw [if_pos hcode]
          exact ⟨by simp [Rows.append, Rows.empty, hplayers], hnew.code, hnew.mode, hnew.status⟩
      · next hcode =>
          obtain ⟨rfl, hroomCode⟩ := hroomRows
          rw [if_neg hcode]
          exact ⟨by simp [Rows.append, Rows.empty, hplayers], hroomCode⟩

/-! ### A flush -/

theorem inTx_upsertPlayer (pseudo : String) :
    InTx recordingStmts (upsertPlayer pseudo) fun id rows facts =>
      ∃ p : Player, p.id = id ∧ Started.WithPlayer pseudo p rows facts := by
  refine InTx.bind (inTx_query id)
    (T := fun found id rows facts => found = some id ∧ rows = Rows.empty ∧ facts = [] ∨
      found = none ∧ (PgCall.stmt (.insertPlayer pseudo)).Added id rows facts) (fun found => ?_) ?_
  · cases found with
    | some id => exact InTx.pure (Or.inl ⟨rfl, rfl, rfl⟩)
    | none => exact (inTx_query id).mono fun _ _ _ h => Or.inr ⟨rfl, h⟩
  · rintro found id _ _ _ _ ⟨-, rfl, rfl⟩ (⟨rfl, rfl, rfl⟩ | ⟨rfl, -, rfl, rfl⟩)
    · exact ⟨{ id, pseudo }, rfl, List.mem_cons_self, Or.inl ⟨rfl, rfl⟩, rfl⟩
    · exact ⟨{ id, pseudo := varchar 50 pseudo }, rfl, List.mem_cons_self, Or.inr ⟨rfl, rfl⟩, rfl⟩

theorem inTx_insertEventRows (gameId : ℕ) (eventRows : List EventRow) :
    InTx recordingStmts (insertEventRows gameId eventRows) fun count rows _ =>
      count = eventRows.length ∧
        rows = { Rows.empty with events := eventRows.map fun row => (gameId, row) } := by
  unfold insertEventRows
  split
  · next hempty =>
      obtain rfl := List.isEmpty_iff.mp hempty
      exact InTx.pure ⟨rfl, rfl⟩
  · refine InTx.bind (inTx_query id)
      (T := fun _ count rows facts => count = eventRows.length ∧ rows = Rows.empty ∧ facts = [])
      (fun _ => InTx.pure ⟨rfl, rfl, rfl⟩) ?_
    rintro _ count _ _ _ _ ⟨-, rfl, rfl⟩ ⟨rfl, rfl, rfl⟩
    exact ⟨rfl, by simp [PgCall.inserts, Rows.append, Rows.empty]⟩

theorem inTx_write (utcnow : DateTime) (s : FinishedSession) (eventRows : List EventRow)
    (hrows : buildEventRows utcnow s.events = .ok eventRows) :
    InTx recordingStmts (writeFinishedSession s eventRows)
      fun r rows facts => s.Whole (· ∈ facts) utcnow r rows := by
  have hevents (playerId gameId : ℕ) : InTx recordingStmts (do
      let count ← insertEventRows gameId eventRows
      return (playerId, gameId, count)) fun r rows _ =>
        r = (playerId, gameId, eventRows.length) ∧
          rows = { Rows.empty with events := eventRows.map fun row => (gameId, row) } := by
    refine InTx.bind (inTx_insertEventRows gameId eventRows)
      (T := fun count r rows facts => r = (playerId, gameId, count) ∧ rows = Rows.empty ∧ facts = [])
      (fun count => InTx.pure ⟨rfl, rfl, rfl⟩) ?_
    rintro count r _ _ _ _ ⟨rfl, rfl⟩ ⟨rfl, rfl, rfl⟩
    exact ⟨rfl, Rows.append_empty _⟩
  have hgame (playerId : ℕ) : InTx recordingStmts (do
      let gameId ← insertFinishedGame playerId s.mode s.score s.startedAt s.finishedAt
      let count ← insertEventRows gameId eventRows
      return (playerId, gameId, count)) fun r rows _ =>
        r.1 = playerId ∧ r.2.2 = eventRows.length ∧
          rows = { Rows.empty with
            games := [{ id := r.2.1, playerId := r.1, roomId := none, mode := s.mode,
                        score := s.score.val, status := .finished, startedAt := s.startedAt.naive,
                        finishedAt := some s.finishedAt.naive }]
            events := eventRows.map fun row => (r.2.1, row) } := by
    refine InTx.bind (inTx_query id) (hevents playerId) ?_
    rintro gameId r _ _ _ _ ⟨-, rfl, rfl⟩ ⟨rfl, rfl⟩
    exact ⟨rfl, rfl, rfl⟩
  refine InTx.bind (inTx_upsertPlayer s.pseudo) hgame ?_
  rintro playerId r playerRows _ facts _ ⟨p, hid, hmem, hof, hplayerRows⟩ ⟨rfl, hcount, rfl⟩
  have hplayers : playerRows.rooms = [] ∧ playerRows.games = [] ∧ playerRows.events = [] := by
    rw [hplayerRows]
    exact ⟨rfl, rfl, rfl⟩
  exact
    { player := ⟨p, hid, by simpa [Rows.append, Rows.empty] using hof, List.mem_append_left _ hmem⟩
      rooms := by simp [Rows.append, Rows.empty, hplayers]
      games := by simp [Rows.append, Rows.empty, hplayers]
      events := ⟨eventRows, hrows, by simp [Rows.append, Rows.empty, hplayers], hcount⟩ }

/-! ## Around a transaction -/

section Around

variable {exec : RestExecution} {α : Type} {R : α → Rows → List Fact → Prop} {q : Ledger}

theorem Ledger.At.started (hq : q.At exec [] []) :
    (q.after (.stmt .start) (.ok ())).Open ∧
      (q.after (.stmt .start) (.ok ())).pending = Rows.empty := by
  refine ⟨⟨rfl, ?_, rfl⟩, ?_⟩
  · rw [Ledger.after, hq.inTx, hq.works]
    rfl
  · rw [Ledger.after, hq.pending]
    rfl

theorem Ledger.Open.committed {rows : Rows} {facts : List Fact} (hq : q.Open)
    (hexec : q.exec = some exec) (hpending : q.pending = rows) (hseen : ∀ x ∈ facts, x ∈ q.seen) :
    (q.after (.stmt .commit) (.ok ())).At exec [.insert rows] facts := by
  refine ⟨hexec, rfl, ?_, fun x hx => List.mem_append_left _ (hseen x hx), rfl, rfl⟩
  rw [Ledger.after, hq.inTx, hq.works, hpending]
  rfl

theorem Ledger.Open.rolledBack (hq : q.Open) (hexec : q.exec = some exec) :
    (q.after (.stmt .rollback) (.ok ())).At exec [] [] := by
  refine ⟨hexec, rfl, ?_, fun x hx => (List.not_mem_nil hx).elim, rfl, rfl⟩
  rw [Ledger.after, hq.inTx, hq.works]
  rfl

theorem Ledger.At.released {W : List Work} {K : List Fact} (hq : q.At exec W K) :
    (q.after (.stmt .release) (.ok ())).At exec W K := by
  refine ⟨hq.exec, rfl, ?_, fun x hx => List.mem_append_left _ ?_, rfl, rfl⟩
  · rw [Ledger.after, hq.inTx, hq.works]
    simp [PgCall.inserts, Rows.works, Rows.empty, Rows.isEmpty, PgCall.updates]
  · rw [hq.inTx, Bool.and_false, if_neg Bool.false_ne_true]
    exact hq.seen x hx

theorem Ledger.At.acquired (hq : q.At exec [] []) :
    (q.after (.stmt .acquire) (.ok ())).At exec [] [] :=
  @Ledger.At.after (.stmt .acquire) q exec [] [] hq id rfl (.ok ())

/-- A program that writes one work as a whole, or raises and writes none. -/
def OneWork {Op : Type} {Res : Op → Type} (exec : RestExecution) (P : Protocol Exc Res Ledger)
    (p : Prog Exc Res α) (R : α → Rows → List Fact → Prop) : Prop :=
  ∀ q : Ledger, q.At exec [] [] → p.Yields P
    (fun q' a => ∃ rows facts, q'.At exec [.insert rows] facts ∧ R a rows facts)
    (fun q' _ => q'.At exec [] []) q

/-- What a unit of work writes is whole where what its body adds is. -/
theorem oneWork_unitOfWork {body : PgProg α} (hbody : InTx recording body R)
    (hwrote : ∀ a rows facts, R a rows facts → exec.Wrote (· ∈ facts) [.insert rows]) :
    OneWork exec recording (unitOfWork body) R := by
  intro q hq
  have hnil {q : Ledger} (hq : q.At exec [] []) : q.Sound := hq.sound exec.wrote_nil
  refine ⟨⟨hq.answer, hnil hq, trivial⟩, ?_⟩
  rintro _ ⟨rfl, -⟩
  have hacquired := hq.acquired
  refine ⟨_, rfl, ⟨hacquired.answer, hnil hacquired, trivial⟩, ?_⟩
  rintro _ ⟨rfl, -⟩
  obtain ⟨hopen, hempty⟩ := hacquired.started
  refine ⟨_, rfl, (hbody _ hopen).attempt_bind ?_ ?_⟩
  · rintro q' a ⟨rows, facts, hadds, hR⟩
    refine ⟨⟨hadds.opened.answer, hadds.opened.sound, trivial⟩, ?_⟩
    rintro _ ⟨rfl, -⟩
    have hpending : q'.pending = rows := by rw [hadds.pending, hempty, Rows.empty_append]
    have hcommitted := hadds.opened.committed (hadds.exec.trans hq.exec) hpending
      fun x hx => hadds.seen x (Or.inr hx)
    refine ⟨_, rfl, ⟨hcommitted.answer, hcommitted.sound (hwrote a rows facts hR), trivial⟩, ?_⟩
    rintro _ ⟨rfl, -⟩
    exact ⟨_, rfl, rows, facts, hcommitted.released, hR⟩
  · rintro q' e ⟨hopen', hexec⟩
    refine ⟨⟨hopen'.answer, hopen'.sound, trivial⟩, ?_⟩
    rintro _ ⟨rfl, -⟩
    have hrolled := hopen'.rolledBack (hexec.trans hq.exec)
    refine ⟨_, rfl, ⟨hrolled.answer, hnil hrolled, trivial⟩, ?_⟩
    rintro _ ⟨rfl, -⟩
    exact ⟨_, rfl, hrolled.released⟩

theorem oneWork_transaction {body : SqlProg α} (hbody : InTx recordingStmts body R) :
    OneWork exec recordingStmts (transaction body) R := by
  intro q hq
  refine ⟨⟨hq.answer, hq.sound exec.wrote_nil, trivial⟩, ?_⟩
  rintro _ ⟨rfl, -⟩
  obtain ⟨hopen, hempty⟩ := hq.started
  refine ⟨_, rfl, (hbody _ hopen).attempt_bind ?_ ?_⟩
  · rintro q' a ⟨rows, facts, hadds, hR⟩
    refine ⟨⟨hadds.opened.answer, hadds.opened.sound, trivial⟩, ?_⟩
    rintro _ ⟨rfl, -⟩
    have hpending : q'.pending = rows := by rw [hadds.pending, hempty, Rows.empty_append]
    have hcommitted := hadds.opened.committed (hadds.exec.trans hq.exec) hpending
      fun x hx => hadds.seen x (Or.inr hx)
    exact ⟨_, rfl, rows, facts, hcommitted, hR⟩
  · rintro q' e ⟨hopen', hexec⟩
    refine ⟨⟨hopen'.answer, hopen'.sound, trivial⟩, ?_⟩
    rintro _ ⟨rfl, -⟩
    exact ⟨_, rfl, hopen'.rolledBack (hexec.trans hq.exec)⟩

theorem oneWork_withConnection {body : SqlProg α} (hbody : OneWork exec recordingStmts body R)
    (hwrote : ∀ a rows facts, R a rows facts → exec.Wrote (· ∈ facts) [.insert rows]) :
    OneWork exec recordingStmts (withConnection body) R := by
  intro q hq
  refine ⟨⟨hq.answer, hq.sound exec.wrote_nil, trivial⟩, ?_⟩
  rintro _ ⟨rfl, -⟩
  refine ⟨_, rfl, (hbody _ hq.acquired).attempt_bind ?_ ?_⟩
  · rintro q' a ⟨rows, facts, hq', hR⟩
    refine ⟨⟨hq'.answer, hq'.sound (hwrote a rows facts hR), trivial⟩, ?_⟩
    rintro _ ⟨rfl, -⟩
    exact ⟨_, rfl, rows, facts, hq'.released, hR⟩
  · rintro q' e hq'
    refine ⟨⟨hq'.answer, hq'.sound exec.wrote_nil, trivial⟩, ?_⟩
    rintro _ ⟨rfl, -⟩
    exact ⟨_, rfl, hq'.released⟩

theorem oneWork_persist (utcnow : DateTime) (s : FinishedSession) :
    OneWork (.player (.persistFinishedSession utcnow s)) recording
      ((persistFinishedSession utcnow s).embed .stmt fun _ r => r)
      fun r rows facts => s.Whole (· ∈ facts) utcnow r rows := by
  suffices h : OneWork (.player (.persistFinishedSession utcnow s)) recordingStmts
      (persistFinishedSession utcnow s) fun r rows facts => s.Whole (· ∈ facts) utcnow r rows from
    fun q hq => (h q hq).embed (R := recording) (f := PgCall.stmt) (g := fun _ r => r)
      (fun _ _ hallowed => hallowed) (fun _ _ hr => hr) fun _ _ _ _ hnext => hnext
  intro q hq
  refine Prog.Yields.bind (Q := fun q' eventRows => q'.At (.player (.persistFinishedSession utcnow s))
    [] [] ∧ buildEventRows utcnow s.events = .ok eventRows) ?_ fun q' eventRows hq' => ?_
  · refine Prog.Yields.ofExcept (fun eventRows hrows => ⟨hq, liftPy_eq_ok.mp hrows⟩) fun _ _ => hq
  · refine oneWork_withConnection (oneWork_transaction (inTx_write utcnow s eventRows hq'.2)) ?_ q'
      hq'.1
    exact fun r rows facts hwhole => Or.inr ⟨r, rows, rfl, hwhole⟩

theorem oneWork_startGame (hex pseudo : String) (mode : GameMode) (roomCode : Option String) :
    OneWork (.game (.startGame hex pseudo mode roomCode)) recording
      (StartGame.execute hex pseudo mode roomCode)
      fun st rows facts => st.Whole (· ∈ facts) hex pseudo mode roomCode rows :=
  oneWork_unitOfWork (inTx_startBody hex pseudo mode roomCode)
    fun st rows _ hwhole => Or.inr ⟨st, rows, rfl, hwhole⟩

end Around

/-! ## Outside transactions -/

section Outside

variable {exec : RestExecution} {W : List Work} {K : List Fact} {q : Ledger}

/-- The execution can answer `a`. -/
def Settles (exec : RestExecution) (a : Answer) (q : Ledger) : Prop :=
  ∃ W K, q.At exec W K ∧ exec.Wrote (· ∈ K) W ∧ exec.Accounts (· ∈ K) W a

theorem Ledger.At.settles {a : Answer} (hq : q.At exec [] K) (ha : exec.Accounts (· ∈ K) [] a) :
    Settles exec a q :=
  ⟨[], K, hq, exec.wrote_nil, ha⟩

theorem at_perform (call : PgCall) (hq : q.At exec W K) (hwrote : exec.Wrote (· ∈ K) W)
    (hbounds : ¬ call.Bounds) (hanswer : call.answer = none) (hallows : q.Allows call) :
    (pg call).Yields recording
      (fun q' a => call.Returns (.ok a) ∧
        q'.At exec (W ++ (call.inserts (.ok a)).works ++ call.updates (.ok a))
          (K ++ call.facts (.ok a)))
      (fun q' e => q'.At exec W K ∧ e.domainError = none) q := by
  refine Prog.Yields.perform ⟨hq.answer, hq.sound hwrote, hallows⟩
    (fun a ha => ⟨_, rfl, ha.1, hq.after hbounds hanswer _⟩)
    fun e he => ⟨_, rfl, ?_, he.2 e rfl⟩
  have hafter := hq.after hbounds hanswer (.error e)
  rw [inserts_error, updates_error, facts_error] at hafter
  simpa [Rows.works, Rows.isEmpty, Rows.empty] using hafter

theorem at_select (call : PgCall) (hq : q.At exec [] K) (hbounds : ¬ call.Bounds)
    (hanswer : call.answer = none) (hupdates : ¬ call.Updates)
    (hinserts : ∀ r, call.inserts r = Rows.empty) (hnone : ∀ r, call.updates r = []) :
    (pg call).Yields recording
      (fun q' a => call.Returns (.ok a) ∧ q'.At exec [] (K ++ call.facts (.ok a)))
      (fun q' e => q'.At exec [] K ∧ e.domainError = none) q := by
  refine (at_perform call hq exec.wrote_nil hbounds hanswer
    (Ledger.allows_of_not_updates hupdates hanswer)).mono (fun q' a hq' => ⟨hq'.1, ?_⟩)
    fun _ _ hq' => hq'
  have hat := hq'.2
  rw [hinserts, hnone] at hat
  simpa [Rows.works, Rows.isEmpty, Rows.empty] using hat

/-- An exception that refuses is a domain error. -/
theorem not_refuses {e : Exc} (he : e.domainError = none) : ¬ e.Refuses := by
  rw [Exc.refuses_iff, he]
  exact Bool.false_ne_true

/-! ### A player -/

theorem at_getByPseudo (pseudo : String) (hq : q.At exec [] K) :
    (PgPlayerRepository.getByPseudo pseudo).Yields recording
      (fun q' found => ∃ K', q'.At exec [] K' ∧
        ∀ p, found = some p → p.pseudo = pseudo ∧ .player p ∈ K')
      (fun q' _ => q'.At exec [] K) q := by
  refine (at_select (.selectPlayer pseudo) hq id rfl id (fun r => ?_) fun _ => rfl).mono
    (fun q' found hq' => ?_) fun _ _ hq' => hq'.1
  · rcases r with e | found <;> rfl
  · refine ⟨_, hq'.2, ?_⟩
    rintro p rfl
    exact ⟨hq'.1, List.mem_append_right _ List.mem_cons_self⟩

theorem at_createPlayer (pseudo : String) (hq : q.At exec [] K) :
    (PgPlayerRepository.create pseudo).Yields recording
      (fun q' p => ∃ K', q'.At exec [p.work] K' ∧ p.pseudo = varchar 50 pseudo ∧ .player p ∈ K')
      (fun q' _ => q'.At exec [] K) q := by
  have hinsert : (pg (.stmt (.insertPlayer pseudo))).Yields recording
      (fun q' id => ∃ K', q'.At exec [({ id, pseudo := varchar 50 pseudo } : Player).work] K' ∧
        .player { id, pseudo := varchar 50 pseudo } ∈ K') (fun q' _ => q'.At exec [] K) q :=
    (at_perform (.stmt (.insertPlayer pseudo)) hq exec.wrote_nil id rfl trivial).mono
      (fun q' id hq' => ⟨_, hq'.2, List.mem_append_right _ List.mem_cons_self⟩) fun _ _ hq' => hq'.1
  refine (hinsert.bind fun q' id ⟨K', hq'⟩ => ?_).tryCatch fun q' e hq' => ?_
  · exact ⟨K', hq'.1, rfl, hq'.2⟩
  · split <;> exact hq'

theorem settles_createOrGetPlayer (raw : String)
    (hq : q.At (.player (.createOrGetPlayer raw)) [] []) :
    (CreateOrGetPlayer.execute raw).Yields recording
      (fun q' p => Settles (.player (.createOrGetPlayer raw)) (.response (.player (.ok p))) q')
      (fun q' e => Settles (.player (.createOrGetPlayer raw)) (.response (.player (.error e))) q')
      q := by
  rw [CreateOrGetPlayer.execute]
  have hfound {pseudo : String} (hraw : normalizeAndValidate raw = .ok pseudo) {q' : Ledger}
      {K : List Fact} {p : Player} (hq' : q'.At (.player (.createOrGetPlayer raw)) [] K)
      (hp : p.pseudo = pseudo ∧ .player p ∈ K) :
      Settles (.player (.createOrGetPlayer raw)) (.response (.player (.ok p))) q' :=
    hq'.settles ⟨hp.1 ▸ hraw, hp.2, Or.inl rfl⟩
  cases hraw : normalizeAndValidate raw with
  | error e => exact hq.settles rfl
  | ok pseudo =>
      have hlook {q : Ledger} {K : List Fact} (hq : q.At (.player (.createOrGetPlayer raw)) [] K) :=
        (at_getByPseudo pseudo hq).mono (fun _ _ hq' => hq') fun _ e hq' =>
          hq'.settles (a := .response (.player (.error e))) rfl
      refine (hlook hq).bind fun q' found hq' => ?_
      obtain ⟨K, hq', hfacts⟩ := hq'
      cases found with
      | some existing => exact hfound hraw hq' (hfacts existing rfl)
      | none =>
          refine Prog.Yields.tryCatch ((at_createPlayer pseudo hq').mono (fun q' p hq' => ?_)
            fun _ _ hq' => hq') fun q' e hq' => ?_
          · obtain ⟨K', hq', hp⟩ := hq'
            rw [varchar_of_isVarchar (isVarchar_of_normalize hraw)] at hp
            exact ⟨[p.work], K', hq', Or.inr ⟨p, rfl, hp.1 ▸ hraw⟩, hp.1 ▸ hraw, hp.2, Or.inr rfl⟩
          · split
            · refine (hlook hq').bind fun q' found hq' => ?_
              obtain ⟨K', hq', hfacts⟩ := hq'
              cases found with
              | some recovered => exact hfound hraw hq' (hfacts recovered rfl)
              | none => exact hq'.settles rfl
            · exact hq'.settles rfl

/-! ### A game -/

theorem at_getById (gameId : ℤ) (hq : q.At exec [] K) :
    (PgGameRepository.getById gameId).Yields recording (fun q' _ => ∃ K', q'.At exec [] K')
      (fun q' e => q'.At exec [] K ∧ e.domainError = none) q := by
  refine (at_select (.selectGame gameId) hq id rfl id (fun r => ?_) fun _ => rfl).mono
    (fun q' found hq' => ⟨_, hq'.2⟩) fun _ _ hq' => hq'
  rcases r with e | found <;> rfl

theorem isOf_of_returns {gameId : ℤ} {type : GameEventType} {points : ℤ} {e : GameEventRow}
    (h : (PgCall.insertGameEvent gameId type points).Returns (.ok e)) : e.IsOf gameId type points :=
  ⟨h.1, h.2.1, h.2.2⟩

theorem settles_addGameEvent (gameId : ℤ) (type : GameEventType) (points : ℤ)
    (hq : q.At (.game (.addGameEvent gameId type points)) [] []) :
    (AddGameEvent.execute gameId type points).Yields recording
      (fun q' r => Settles (.game (.addGameEvent gameId type points)) (.response (.added (.ok r))) q')
      (fun q' e => Settles (.game (.addGameEvent gameId type points))
        (.response (.added (.error e))) q') q := by
  refine Prog.Yields.bind ((at_getById gameId hq).mono (fun _ _ hq' => hq')
    fun _ _ hq' => hq'.1.settles fun _ => rfl) fun q' found hq' => ?_
  obtain ⟨K, hq'⟩ := hq'
  cases found with
  | none => exact hq'.settles fun _ => rfl
  | some game =>
      dsimp only
      split
      · exact hq'.settles fun _ => rfl
      · refine Prog.Yields.bind ((at_perform (.insertGameEvent gameId type points) hq'
          (RestExecution.wrote_nil _) id rfl trivial).mono (fun _ _ hq' => hq')
          fun _ _ hq' => hq'.1.settles fun _ => rfl) fun q' event hq' => ?_
        obtain ⟨hreturns, hq'⟩ := hq'
        have hevent := isOf_of_returns hreturns
        have hwrote {S : Fact → Prop} : RestExecution.Wrote S [event.work]
            (.game (.addGameEvent gameId type points)) := Or.inr ⟨event, hevent, Or.inl rfl⟩
        split
        · next hpoints =>
            refine Prog.Yields.bind ((at_perform (.addPoints gameId points) hq' hwrote id rfl
              ⟨hq'.inTx, hpoints⟩).mono (fun _ _ hq' => hq') fun q' e hq' => ?_) fun q' game hq' => ?_
            · exact ⟨_, _, hq'.1, hwrote, fun hrefuses => (not_refuses hq'.2 hrefuses).elim⟩
            · refine ⟨_, _, hq'.2, Or.inr ⟨event, hevent, Or.inr ⟨hpoints, rfl⟩⟩, hevent, ?_⟩
              rw [if_pos hpoints]
              rfl
        · next hpoints =>
            refine ⟨_, _, hq', hwrote, hevent, ?_⟩
            rw [if_neg hpoints]
            rfl

theorem settles_finishGame (gameId : ℤ) (hq : q.At (.game (.finishGame gameId)) [] []) :
    (FinishGame.execute gameId).Yields recording
      (fun q' r => Settles (.game (.finishGame gameId)) (.response (.finished (.ok r))) q')
      (fun q' e => Settles (.game (.finishGame gameId)) (.response (.finished (.error e))) q') q := by
  refine Prog.Yields.bind ((at_getById gameId hq).mono (fun _ _ hq' => hq')
    fun _ _ hq' => hq'.1.settles fun _ => rfl) fun q' found hq' => ?_
  obtain ⟨K, hq'⟩ := hq'
  cases found with
  | none => exact hq'.settles fun _ => rfl
  | some game =>
      dsimp only
      split
      · exact hq'.settles fun _ => rfl
      · refine Prog.Yields.bind ((at_perform (.finishGame gameId) hq' (RestExecution.wrote_nil _) id
          rfl hq'.inTx).mono (fun _ _ hq' => hq') fun _ _ hq' => hq'.1.settles fun _ => rfl)
          fun q' game hq' => ?_
        have hwrote {S : Fact → Prop} : RestExecution.Wrote S [.finish gameId game.finishedAt]
            (.game (.finishGame gameId)) := Or.inr ⟨_, Or.inl rfl⟩
        refine Prog.Yields.bind ((at_perform (.insertGameEvent gameId .gameOver 0) hq'.2 hwrote id rfl
          trivial).mono (fun _ _ hq' => hq') fun q' e hq' => ?_) fun q' event hq'' => ?_
        · exact ⟨_, _, hq'.1, hwrote, fun hrefuses => (not_refuses hq'.2 hrefuses).elim⟩
        · have hevent := isOf_of_returns hq''.1
          exact ⟨_, _, hq''.2, Or.inr ⟨_, Or.inr ⟨event, hevent, rfl⟩⟩, hevent, rfl⟩

end Outside

/-! ## The executions -/

section Executions

variable {exec : RestExecution} {α : Type}

theorem Ledger.At.fresh (exec : RestExecution) : Ledger.At exec [] [] { exec := some exec } :=
  ⟨rfl, rfl, rfl, fun _ hx => (List.not_mem_nil hx).elim, rfl, rfl⟩

theorem recording_respond {q : Ledger} {response : Response}
    (hq : Settles exec (.response response) q) :
    (pg (.respond response)).Yields recording (fun q' _ => q'.Sound) (fun q' _ => q'.Sound) q := by
  obtain ⟨W, K, hat, hwrote, haccounts⟩ := hq
  have hsound (r : Except Exc Unit) : (q.after (.respond response) r).Sound := by
    refine ⟨fun exec' hexec => ?_, fun htx => ?_⟩
    · obtain rfl := Option.some.inj (hat.exec.symm.trans hexec)
      have hworks : (q.after (.respond response) r).works = W := by
        rw [Ledger.after, hat.inTx, hat.works]
        simp [PgCall.inserts, PgCall.updates, Rows.works, Rows.isEmpty, Rows.empty]
      rw [hworks]
      exact hwrote.mono fun x hx => List.mem_append_left _ (hat.seen x hx)
    · cases hat.inTx.symm.trans htx
  exact Prog.Yields.perform ⟨hat.answer, hat.sound hwrote, hat.accounts haccounts⟩
    (fun _ _ => ⟨_, rfl, hsound _⟩) fun _ _ => ⟨_, rfl, hsound _⟩

theorem recording_view {q : Ledger} {view : View} (hq : Settles exec (.view view) q) :
    (rest (.view view)).Yields restRecording (fun q' _ => q'.Sound) (fun q' _ => q'.Sound) q := by
  obtain ⟨W, K, hat, hwrote, haccounts⟩ := hq
  have hsound := hat.sound hwrote
  exact Prog.Yields.perform ⟨hat.answer, hsound, hat.accounts haccounts⟩
    (fun _ _ => ⟨_, rfl, hsound.wrote, hsound.inTx⟩) fun _ _ => ⟨_, rfl, hsound.wrote, hsound.inTx⟩

theorem recording_answering {p : PgProg α} {response : Except Exc α → Response}
    (hp : ∀ q : Ledger, q.At exec [] [] → p.Yields recording
      (fun q' a => Settles exec (.response (response (.ok a))) q')
      (fun q' e => Settles exec (.response (response (.error e))) q') q) :
    (onPg (answering response p)).Follows restRecording Ledger.Sound Ledger.Sound
      { exec := some exec } := by
  have hanswering : (answering response p).Yields recording (fun q' _ => q'.Sound)
      (fun q' _ => q'.Sound) { exec := some exec } :=
    (hp _ (.fresh exec)).attempt_bind (fun _ _ hq => recording_respond hq)
      fun _ _ hq => recording_respond hq
  exact (hanswering.embed (R := restRecording) (f := RestOp.pg) (g := fun _ r => r)
    (fun _ _ hallowed => hallowed) (fun _ _ hr => hr) fun _ _ _ _ hnext => hnext).follows
      (fun _ _ hq => hq) fun _ _ hq => hq

theorem recording_viewing {p : RestProg α} {view : Except Exc α → View}
    (hp : ∀ q : Ledger, q.At exec [] [] → p.Yields restRecording
      (fun q' a => Settles exec (.view (view (.ok a))) q')
      (fun q' e => Settles exec (.view (view (.error e))) q') q) :
    (viewing view p).Follows restRecording Ledger.Sound Ledger.Sound { exec := some exec } := by
  have hviewing : (viewing view p).Yields restRecording (fun q' _ => q'.Sound)
      (fun q' _ => q'.Sound) { exec := some exec } :=
    (hp _ (.fresh exec)).attempt_bind (fun _ _ hq => recording_view hq)
      fun _ _ hq => recording_view hq
  exact hviewing.follows (fun _ _ hq => hq) fun _ _ hq => hq

/-- What is written as a whole is what is answered. -/
theorem OneWork.settles {p : PgProg α} {R : α → Rows → List Fact → Prop}
    {response : Except Exc α → Response} (hp : OneWork exec recording p R)
    (hok : ∀ a rows facts, R a rows facts → exec.Wrote (· ∈ facts) [.insert rows] ∧
      exec.Accounts (· ∈ facts) [.insert rows] (.response (response (.ok a))))
    (herror : ∀ e, exec.Accounts (· ∈ ([] : List Fact)) [] (.response (response (.error e))))
    (q : Ledger) (hq : q.At exec [] []) : p.Yields recording
      (fun q' a => Settles exec (.response (response (.ok a))) q')
      (fun q' e => Settles exec (.response (response (.error e))) q') q := by
  refine (hp q hq).mono (fun q' a hq' => ?_) fun q' e hq' => hq'.settles (herror e)
  obtain ⟨rows, facts, hat, hR⟩ := hq'
  exact ⟨_, _, hat, hok a rows facts hR⟩

theorem recording_createRoom (hex : String) (mode : GameMode) (q : Ledger)
    (hq : q.At (.createRoom hex mode) [] []) :
    (CreateRoom.execute hex mode).Yields restRecording
      (fun q' room => Settles (.createRoom hex mode) (.view (.created (.ok room))) q')
      (fun q' e => Settles (.createRoom hex mode) (.view (.created (.error e))) q') q := by
  have hcreate : (PgRoomRepository.create hex mode).Yields recording
      (fun q' room => Settles (.createRoom hex mode) (.view (.created (.ok room))) q')
      (fun q' e => Settles (.createRoom hex mode) (.view (.created (.error e))) q') q := by
    refine (at_perform (.insertRoom _ mode .waiting) hq (RestExecution.wrote_nil _) id rfl
      trivial).mono (fun q' room hq' => ?_) fun q' e hq' => hq'.1.settles rfl
    have hnew : room.IsNew hex mode := ⟨hq'.1.1, hq'.1.2.1, hq'.1.2.2⟩
    exact ⟨_, _, hq'.2, Or.inr ⟨room, rfl, hnew⟩, rfl, hnew⟩
  exact hcreate.embed (R := restRecording) (f := RestOp.pg) (g := fun _ r => r)
    (fun _ _ hallowed => hallowed) (fun _ _ hr => hr) fun _ _ _ _ hnext => hnext

/-- Queries write nothing. -/
theorem recording_selects {p : RestProg α} (hp : p.All RestOp.Selects) (q : Ledger)
    (hq : q.At exec [] []) :
    p.Yields restRecording (fun q' _ => ∃ K, q'.At exec [] K) (fun q' _ => ∃ K, q'.At exec [] K)
      q := by
  refine Prog.Yields.of_all (J := fun q : Ledger => ∃ K, q.At exec [] K) (fun op q hop hq => ?_) hp
    ⟨_, hq⟩
  obtain ⟨K, hat⟩ := hq
  have hsound := hat.sound exec.wrote_nil
  cases op with
  | pg call =>
      have hselect : ¬ call.Bounds ∧ call.answer = none ∧ q.Allows call ∧ ∀ r : Except Exc call.Res,
          call.inserts r = Rows.empty ∧ call.updates r = [] := by
        cases call with
        | selectPlayer pseudo => exact ⟨id, rfl, trivial, by rintro (e | _) <;> exact ⟨rfl, rfl⟩⟩
        | selectRoom code => exact ⟨id, rfl, trivial, by rintro (e | _) <;> exact ⟨rfl, rfl⟩⟩
        | selectGame gameId => exact ⟨id, rfl, trivial, by rintro (e | _) <;> exact ⟨rfl, rfl⟩⟩
        | _ => exact hop.elim
      refine ⟨⟨hat.answer, hsound, hselect.2.2.1⟩, fun r hr => ⟨_, rfl, K ++ call.facts r, ?_⟩⟩
      have hafter := hat.after hselect.1 hselect.2.1 r
      rw [(hselect.2.2.2 r).1, (hselect.2.2.2 r).2] at hafter
      simpa [Rows.works, Rows.isEmpty, Rows.empty] using hafter
  | view view => exact hop.elim
  | _ => exact ⟨⟨hat.answer, hsound, hat.inTx⟩, fun r _ => ⟨q, rfl, K, hat⟩⟩

end Executions

theorem recording_prog (exec : RestExecution) :
    exec.prog.Follows restRecording Ledger.Sound Ledger.Sound { exec := some exec } := by
  cases exec with
  | game exec =>
      cases exec with
      | startGame hex pseudo mode roomCode =>
          refine recording_answering ((oneWork_startGame hex pseudo mode roomCode).settles
            (fun st rows facts hwhole => ?_) fun e => rfl)
          exact ⟨Or.inr ⟨st, rows, rfl, hwhole⟩, rows, rfl, hwhole⟩
      | addGameEvent gameId type points =>
          exact recording_answering fun q hq => settles_addGameEvent gameId type points hq
      | finishGame gameId => exact recording_answering fun q hq => settles_finishGame gameId hq
  | player exec =>
      cases exec with
      | createOrGetPlayer rawPseudo =>
          exact recording_answering fun q hq => settles_createOrGetPlayer rawPseudo hq
      | persistFinishedSession utcnow s =>
          refine recording_answering ((oneWork_persist utcnow s).settles
            (fun r rows facts hwhole => ?_) fun e => rfl)
          exact ⟨Or.inr ⟨r, rows, rfl, hwhole⟩, rows, rfl, hwhole⟩
  | createRoom hex mode => exact recording_viewing (recording_createRoom hex mode)
  | read exec =>
      obtain ⟨α, view, p, hprog, hp⟩ := exec.prog_viewing
      change exec.prog.Follows _ _ _ _
      rw [hprog]
      refine recording_viewing fun q hq => (recording_selects hp q hq).mono ?_ ?_
      · rintro q' a ⟨K, hat⟩
        exact hat.settles rfl
      · rintro q' e ⟨K, hat⟩
        exact hat.settles rfl

end FlipperBack
