import FlipperBack.Effects.Yields
import FlipperBack.Properties.Progress
import FlipperBack.System.Answers
import FlipperBack.System.Facts

/-!
# What was told stays true

An execution of the REST flow that begins after another one has answered is told
nothing that contradicts this answer, whatever runs at the same time: it sees the
rows that were shown as they were, or later (`told_later`), and it finds them where it
looks for them (`told_found`). `Sight` is what an execution has read so far;
the protocol says that it tells nothing else.
-/

namespace FlipperBack

open Effects Python

/-! ## What is told -/

/-- What the client of an execution is told: the rows that it is shown, and whether a
row is not there. -/
structure Told where
  facts : List Fact
  notFound : Bool

def Exc.notFound : Exc → Bool
  | playerNotFound _ => true
  | roomNotFound _ => true
  | gameNotFound _ => true
  | _ => false

/-- What an outcome tells. -/
def Told.of {α : Type} (facts : α → List Fact) : Except Exc α → Told
  | .ok a => { facts := facts a, notFound := false }
  | .error e => { facts := [], notFound := e.notFound }

def Started.facts (s : Started) : List Fact :=
  [.player s.player, .room s.room, .game s.game, .event s.event]

/-- The game and the event of an execution on a game. -/
def playedFacts (r : GameRow × GameEventRow) : List Fact :=
  [.game r.1, .event r.2]

/-- The keys of a flush. -/
def persistedFacts (r : ℕ × ℕ × ℕ) : List Fact :=
  [.playerKey r.1, .gameKey r.2.1]

def Response.told : Response → Told
  | player r => .of (fun p => [.player p]) r
  | started r => .of Started.facts r
  | added r => .of playedFacts r
  | finished r => .of playedFacts r
  | persisted r => .of persistedFacts r

/-- A game with its events. -/
def gameFacts (r : GameRow × List GameEventRow) : List Fact :=
  .game r.1 :: r.2.map .event

def View.told : View → Told
  | created r => .of (fun room => [.room room]) r
  | rooms r => .of (·.map .room) r
  | games r => .of (·.map .game) r
  | joined r => .of (fun j => .room j.1 :: j.2.map .game) r
  | roomState r => .of (fun j => .room j.1 :: j.2.flatMap gameFacts) r
  | gameState r => .of gameFacts r
  | player r => .of (fun p => [.player p]) r
  | history r => .of (fun h => .player h.1 :: h.2.map fun item => .game item.game) r
  | leaderboard r => .of (fun _ => []) r

/-- The client of the execution `i` is told `t`. -/
def Rest.Tells (v : Rest) (i : ℕ) (t : Told) : Prop :=
  (∃ response, (i, response) ∈ v.server.responses ∧ response.told = t) ∨
    ∃ view, (i, view) ∈ v.views ∧ view.told = t

/-! ## What is looked up -/

/-- What an execution looks up, and tells where it is not there. -/
def RestRead.lookup : RestRead → Option Lookup
  | joinRoom roomCode => some (.code roomCode)
  | roomState roomCode _ => some (.code roomCode)
  | gameState gameId _ => some (.gameId gameId)
  | player playerId => some (.playerId playerId)
  | playerByPseudo rawPseudo => (normalizeAndValidate rawPseudo).toOption.map .pseudo
  | history playerId _ _ => some (.playerId playerId)
  | _ => none

def RestExecution.lookup : RestExecution → Option Lookup
  | game (.startGame _ _ _ roomCode) => roomCode.map .code
  | game (.addGameEvent gameId _ _) => some (.gameId gameId)
  | game (.finishGame gameId) => some (.gameId gameId)
  | player (.createOrGetPlayer rawPseudo) => (normalizeAndValidate rawPseudo).toOption.map .pseudo
  | player (.persistFinishedSession _ _) => none
  | createRoom _ _ => none
  | read exec => exec.lookup

/-! ## What an execution has read -/

/-- What an execution looks up, whether it is in a transaction, and what it has read. -/
structure Sight where
  lookup : Option Lookup
  inTx : Bool := false
  seen : List Fact := []

/-- The calls that drop what the transaction of their connection has written. -/
def PgCall.drops : PgCall → Bool
  | stmt .rollback => true
  | stmt .release => true
  | _ => false

/-- Whether a connection is in a transaction after a call. -/
def PgCall.inTxAfter (inTx : Bool) : PgCall → Bool
  | stmt .start => true
  | stmt .commit => false
  | stmt .rollback => false
  | stmt .release => false
  | _ => inTx

namespace Sight

/-- An execution that is in no transaction tells what it has read. -/
def Backs (q : Sight) (t : Told) : Prop :=
  q.inTx = false ∧ t.facts ⊆ q.seen ∧
    (t.notFound = true → ∃ l, q.lookup = some l ∧ .absent l ∈ q.seen)

def Allows (q : Sight) : PgCall → Prop
  | .respond response => q.Backs response.told
  | .addPoints _ points => 0 < points
  | _ => True

/-- What is left of what has been read. -/
def kept (q : Sight) (call : PgCall) : List Fact :=
  if call.drops && q.inTx then q.seen.filter Fact.isAbsent else q.seen

def after (q : Sight) (call : PgCall) (r : Except Exc call.Res) : Sight where
  lookup := q.lookup
  inTx := call.inTxAfter q.inTx
  seen := q.kept call ++ call.facts r

/-- What is looked up is `k`, and the rows `K` have been seen. -/
structure At (k : Option Lookup) (inTx : Bool) (K : List Fact) (q : Sight) : Prop where
  lookup : q.lookup = k
  inTx : q.inTx = inTx
  seen : K ⊆ q.seen

end Sight

/-- An error of a call is not that a row is not there. -/
def Reports {α : Type} (r : Except Exc α) : Prop :=
  ∀ e, r = .error e → e.notFound = false

def seeing : Protocol Exc PgCall.Res Sight where
  allowed := Sight.Allows
  answers call r := call.Answers r ∧ Reports r
  next q call r q' := q' = q.after call r

/-- The protocol of the statements. -/
def seeingStmts : Protocol Exc Stmt.Res Sight where
  allowed q stmt := q.Allows (.stmt stmt)
  answers stmt r := PgCall.Answers (.stmt stmt) r ∧ Reports r
  next q stmt r q' := q' = q.after (.stmt stmt) r

/-- A query on the pool is made outside transactions. -/
def restSeeing : Protocol Exc RestOp.Res Sight where
  allowed q
    | .pg call => q.Allows call
    | .view view => q.Backs view.told
    | _ => q.inTx = false
  answers
    | .pg call, r => call.Answers r ∧ Reports r
    | _, r => Reports r
  next q
    | .pg call, r, q' => q' = q.after call r
    | op, r, q' => q' = { q with seen := q.seen ++ op.facts r }

/-! ## Triples -/

/-- A program that starts where the rows `K` have been seen: it returns `a` where the
rows `K' a` have been seen too, and where it raises that a row is not there, it has
found none. -/
def Sees {Op : Type} {Res : Op → Type} {α : Type} (P : Protocol Exc Res Sight)
    (k : Option Lookup) (inTx : Bool) (K : List Fact) (p : Prog Exc Res α) (K' : α → List Fact) :
    Prop :=
  ∀ q : Sight, q.At k inTx K → p.Yields P (fun q' a => q'.At k inTx (K ++ K' a))
    (fun q' e => q'.At k inTx K ∧ (e.notFound = true → ∃ l, k = some l ∧ .absent l ∈ q'.seen)) q

namespace Sees

variable {Op : Type} {Res : Op → Type} {P : Protocol Exc Res Sight} {k : Option Lookup}
  {inTx : Bool} {α β : Type} {K K₁ : List Fact}

theorem pure {K' : α → List Fact} {a : α} (h : K' a ⊆ K) :
    Sees P k inTx K (pure a : Prog Exc Res α) K' :=
  fun _ hq => ⟨hq.lookup, hq.inTx, List.append_subset.mpr ⟨hq.seen, fun _ hx => hq.seen (h hx)⟩⟩

theorem throw {K' : α → List Fact} {e : Exc}
    (h : e.notFound = true → ∃ l, k = some l ∧ .absent l ∈ K) :
    Sees P k inTx K (throw e : Prog Exc Res α) K' := by
  refine fun q hq => ⟨hq, fun he => ?_⟩
  obtain ⟨l, hl, hmem⟩ := h he
  exact ⟨l, hl, hq.seen hmem⟩

theorem bind {p : Prog Exc Res α} {f : α → Prog Exc Res β} {L : α → List Fact}
    {M : β → List Fact} (hp : Sees P k inTx K p L)
    (hf : ∀ a, Sees P k inTx (K ++ L a) (f a) M) : Sees P k inTx K (p >>= f) M := by
  intro q hq
  refine (hp q hq).bind fun q' a hq' => (hf a q' hq').mono (fun q'' b hq'' => ?_) fun q'' e hq'' => ?_
  · refine ⟨hq''.lookup, hq''.inTx, fun x hx => hq''.seen ?_⟩
    rcases List.mem_append.mp hx with hx | hx
    · exact List.mem_append_left _ (List.mem_append_left _ hx)
    · exact List.mem_append_right _ hx
  · exact ⟨⟨hq''.1.lookup, hq''.1.inTx, fun x hx => hq''.1.seen (List.mem_append_left _ hx)⟩, hq''.2⟩

/-- Rows that have been seen before or are seen by the program. -/
theorem mono {p : Prog Exc Res α} {K' K'' : α → List Fact} (hp : Sees P k inTx K p K')
    (h : ∀ a, K'' a ⊆ K ++ K' a) : Sees P k inTx K p K'' := by
  refine fun q hq => (hp q hq).mono (fun q' a hq' => ?_) fun _ _ hq' => hq'
  refine ⟨hq'.lookup, hq'.inTx, List.append_subset.mpr ⟨fun x hx => ?_, fun x hx => ?_⟩⟩
  · exact hq'.seen (List.mem_append_left _ hx)
  · exact hq'.seen (h a hx)

theorem tryCatch {p : Prog Exc Res α} {f : Exc → Prog Exc Res α} {K' : α → List Fact}
    (hp : Sees P k inTx K p K') (hf : ∀ e, e.notFound = false → Sees P k inTx K (f e) K')
    (hthrow : ∀ e, e.notFound = true → f e = MonadExcept.throw e) :
    Sees P k inTx K (MonadExcept.tryCatch p f) K' := by
  refine fun q hq => (hp q hq).tryCatch fun q' e hq' => ?_
  cases he : e.notFound with
  | false => exact hf e he q' hq'.1
  | true =>
      rw [hthrow e he]
      exact hq'

theorem ofExcept {x : Except Exc α} {K' : α → List Fact} (hok : ∀ a, x = .ok a → K' a ⊆ K)
    (herror : Reports x) : Sees P k inTx K (Prog.ofExcept x : Prog Exc Res α) K' := by
  cases x with
  | ok a => exact pure (hok a rfl)
  | error e => exact throw fun he => absurd he (by simp [herror e rfl])

end Sees

theorem Sight.At.after {k : Option Lookup} {inTx : Bool} {K : List Fact} {q : Sight}
    (hq : q.At k inTx K) {call : PgCall} (hcall : call.Plain) (r : Except Exc call.Res) :
    (q.after call r).At k inTx (K ++ call.facts r) := by
  have hplain : call.drops = false ∧ call.inTxAfter q.inTx = q.inTx := by
    cases call with
    | stmt s =>
        cases s with
        | start => exact hcall.elim
        | commit => exact hcall.elim
        | rollback => exact hcall.elim
        | release => exact hcall.elim
        | _ => exact ⟨rfl, rfl⟩
    | _ => exact ⟨rfl, rfl⟩
  refine ⟨hq.lookup, hplain.2.trans hq.inTx, List.append_subset.mpr ⟨fun x hx => ?_, fun x hx => ?_⟩⟩
  · refine List.mem_append_left _ ?_
    rw [Sight.kept, if_neg (by simp [hplain.1])]
    exact hq.seen hx
  · exact List.mem_append_right _ hx

section Programs

variable {k : Option Lookup} {inTx : Bool} {K : List Fact} {α : Type}

/-- A call has seen what it has read. -/
theorem sees_perform {call : PgCall} (hcall : call.Plain) (hallowed : ∀ q : Sight, q.Allows call) :
    Sees seeing k inTx K (pg call) fun a => call.facts (.ok a) := by
  refine fun q hq => Prog.Yields.perform (hallowed q) (fun a _ => ⟨_, rfl, hq.after hcall _⟩)
    fun e he => ⟨_, rfl, ⟨hq.lookup, (hq.after hcall _).inTx, fun x hx => ?_⟩, fun hnot => ?_⟩
  · exact (hq.after hcall _).seen (List.mem_append_left _ hx)
  · exact absurd hnot (by simp [he.2 e rfl])

theorem sees_createPlayer (pseudo : String) :
    Sees seeing k inTx K (PgPlayerRepository.create pseudo) fun p => [.player p] := by
  refine Sees.tryCatch (Sees.bind (sees_perform trivial fun _ => trivial) fun id => Sees.pure ?_) ?_ ?_
  · exact fun x hx => List.mem_append_right _ (List.mem_singleton.mp hx ▸ List.mem_cons_self)
  · intro e he
    split
    · exact Sees.throw fun h => Bool.noConfusion h
    · exact Sees.throw fun h => absurd h (by simp [he])
  · intro e he
    cases e with
    | uniqueViolation => cases he
    | _ => rfl

theorem sees_startPlayer (pseudo : String) :
    Sees seeing k inTx K (startPlayer pseudo) fun p => [.player p] := by
  refine Sees.bind (sees_perform trivial fun _ => trivial) fun found => ?_
  cases found with
  | some p => exact Sees.pure fun x hx => List.mem_append_right _ hx
  | none => exact sees_createPlayer pseudo

theorem sees_startRoom (hex : String) (mode : GameMode) (roomCode : Option String) :
    Sees seeing (roomCode.map .code) inTx K (startRoom hex mode roomCode) fun r => [.room r] := by
  unfold startRoom
  dsimp only
  split
  · exact sees_perform trivial fun _ => trivial
  · next hcode =>
      refine Sees.bind (sees_perform trivial fun _ => trivial) fun found => ?_
      cases found with
      | some r => exact Sees.pure fun x hx => List.mem_append_right _ hx
      | none =>
          cases roomCode with
          | none => exact absurd rfl hcode
          | some code => exact Sees.throw fun _ => ⟨_, rfl, List.mem_append_right _ List.mem_cons_self⟩

theorem sees_startBody (hex pseudo : String) (mode : GameMode) (roomCode : Option String) :
    Sees seeing (roomCode.map .code) inTx K (startBody hex pseudo mode roomCode)
      Started.facts := by
  refine Sees.bind (sees_startPlayer pseudo) fun player => ?_
  refine Sees.bind (sees_startRoom hex mode roomCode) fun room => ?_
  refine Sees.bind (sees_perform trivial fun _ => trivial) fun game => ?_
  refine Sees.bind (sees_perform trivial fun _ => trivial) fun event => Sees.pure fun x hx => ?_
  simp only [Started.facts, List.mem_cons, List.not_mem_nil, or_false] at hx
  simp only [List.mem_append, PgCall.facts, List.mem_singleton]
  rcases hx with rfl | rfl | rfl | rfl <;> simp

/-- What a unit of work returns it has seen; where it raises that a row is not there, it
has found none, which the end of its transaction leaves. -/
theorem sees_unitOfWork {body : PgProg α} {K' : α → List Fact}
    (hbody : Sees seeing k true [] body K') : Sees seeing k false [] (unitOfWork body) K' := by
  intro q hq
  refine ⟨trivial, ?_⟩
  rintro _ ⟨rfl, -⟩
  refine ⟨_, rfl, trivial, ?_⟩
  rintro _ ⟨rfl, -⟩
  have hstarted : ((q.after (.stmt .acquire) (.ok ())).after (.stmt .start) (.ok ())).At k true [] :=
    ⟨hq.lookup, rfl, List.nil_subset _⟩
  refine ⟨_, rfl, (hbody _ hstarted).attempt_bind ?_ ?_⟩
  · intro q' a hq'
    refine ⟨trivial, ?_⟩
    rintro _ ⟨rfl, -⟩
    refine ⟨_, rfl, trivial, ?_⟩
    rintro _ ⟨rfl, -⟩
    exact ⟨_, rfl, hq'.lookup, rfl, fun x hx => List.mem_append_left _
      (List.mem_append_left _ (hq'.seen hx))⟩
  · rintro q' e ⟨hq', hnot⟩
    refine ⟨trivial, ?_⟩
    rintro _ ⟨rfl, -⟩
    refine ⟨_, rfl, trivial, ?_⟩
    rintro _ ⟨rfl, -⟩
    refine ⟨_, rfl, ⟨hq'.lookup, rfl, List.nil_subset _⟩, fun he => ?_⟩
    obtain ⟨l, hl, hmem⟩ := hnot he
    refine ⟨l, hl, List.mem_append_left _ (List.mem_append_left _ ?_)⟩
    rw [Sight.kept, if_pos (by rw [hq'.inTx]; rfl)]
    exact List.mem_filter.mpr ⟨hmem, rfl⟩

theorem sees_addGameEvent (gameId : ℤ) (type : GameEventType) (points : ℤ) :
    Sees seeing (some (.gameId gameId)) inTx K (AddGameEvent.execute gameId type points)
      playedFacts := by
  refine Sees.bind (sees_perform trivial fun _ => trivial) fun found => ?_
  cases found with
  | none => exact Sees.throw fun _ => ⟨_, rfl, List.mem_append_right _ List.mem_cons_self⟩
  | some game =>
      dsimp only
      split
      · exact Sees.throw fun h => Bool.noConfusion h
      · refine Sees.bind (sees_perform trivial fun _ => trivial) fun event => ?_
        split
        · next hpoints =>
            refine Sees.bind (sees_perform trivial fun _ => hpoints) fun game =>
              Sees.pure fun x hx => ?_
            simp only [playedFacts, List.mem_cons, List.not_mem_nil, or_false] at hx
            simp only [List.mem_append, PgCall.facts, List.mem_singleton]
            rcases hx with rfl | rfl <;> simp
        · refine Sees.pure fun x hx => ?_
          simp only [playedFacts, List.mem_cons, List.not_mem_nil, or_false] at hx
          simp only [List.mem_append, PgCall.facts, List.mem_singleton]
          rcases hx with rfl | rfl <;> simp

theorem sees_finishGame (gameId : ℤ) :
    Sees seeing (some (.gameId gameId)) inTx K (FinishGame.execute gameId) playedFacts := by
  refine Sees.bind (sees_perform trivial fun _ => trivial) fun found => ?_
  cases found with
  | none => exact Sees.throw fun _ => ⟨_, rfl, List.mem_append_right _ List.mem_cons_self⟩
  | some game =>
      dsimp only
      split
      · exact Sees.throw fun h => Bool.noConfusion h
      · refine Sees.bind (sees_perform trivial fun _ => trivial) fun game => ?_
        refine Sees.bind (sees_perform trivial fun _ => trivial) fun event => Sees.pure fun x hx => ?_
        simp only [playedFacts, List.mem_cons, List.not_mem_nil, or_false] at hx
        simp only [List.mem_append, PgCall.facts, List.mem_singleton]
        rcases hx with rfl | rfl <;> simp

theorem normalizeAndValidate_reports (raw : String) : Reports (normalizeAndValidate raw) := by
  intro e he
  unfold normalizeAndValidate at he
  split at he
  · cases he
    rfl
  · split at he
    · cases he
    · cases he
      rfl

theorem sees_createOrGetPlayer (raw : String) :
    Sees seeing ((normalizeAndValidate raw).toOption.map .pseudo) inTx K
      (CreateOrGetPlayer.execute raw) fun p => [.player p] := by
  rw [CreateOrGetPlayer.execute]
  have hreports := normalizeAndValidate_reports raw
  cases hraw : normalizeAndValidate raw with
  | error e =>
      rw [hraw] at hreports
      exact Sees.throw fun h => absurd h (by simp [hreports e rfl])
  | ok pseudo =>
      have hlook (K : List Fact) : Sees seeing (some (.pseudo pseudo)) inTx K
          (PgPlayerRepository.getByPseudo pseudo)
          fun found => (PgCall.selectPlayer pseudo).facts (.ok found) :=
        sees_perform trivial fun _ => trivial
      refine (hlook K).bind fun found => ?_
      cases found with
      | some p => exact Sees.pure fun x hx => List.mem_append_right _ hx
      | none =>
          refine Sees.tryCatch (sees_createPlayer pseudo) (fun e he => ?_) fun e he => ?_
          · split
            · refine (hlook _).bind fun found => ?_
              cases found with
              | some p => exact Sees.pure fun x hx => List.mem_append_right _ hx
              | none =>
                  exact Sees.throw fun _ => ⟨_, rfl, List.mem_append_right _ List.mem_cons_self⟩
            · exact Sees.throw fun h => absurd h (by simp [he])
          · cases e with
            | playerAlreadyExists message => cases he
            | _ => rfl

/-! ### A flush -/

theorem sees_query {stmt : Stmt} (hstmt : PgCall.Plain (.stmt stmt)) :
    Sees seeingStmts k inTx K (query stmt) fun a => PgCall.facts (.stmt stmt) (.ok a) := by
  refine fun q hq => Prog.Yields.perform trivial (fun a _ => ⟨_, rfl, hq.after hstmt _⟩)
    fun e he => ⟨_, rfl, ⟨hq.lookup, (hq.after hstmt _).inTx, fun x hx => ?_⟩, fun hnot => ?_⟩
  · exact (hq.after hstmt _).seen (List.mem_append_left _ hx)
  · exact absurd hnot (by simp [he.2 e rfl])

theorem sees_write (s : FinishedSession) (rows : List EventRow) :
    Sees seeingStmts k inTx K (writeFinishedSession s rows) persistedFacts := by
  have hinsert (K : List Fact) : Sees seeingStmts k inTx K (query (.insertPlayer s.pseudo))
      fun id => [.player { id, pseudo := varchar 50 s.pseudo }, .playerKey id] := sees_query trivial
  have hplayer : Sees seeingStmts k inTx K (upsertPlayer s.pseudo) fun id => [.playerKey id] := by
    refine Sees.bind (sees_query trivial) fun found => ?_
    cases found with
    | some id =>
        exact Sees.pure fun x hx => List.mem_append_right _ (List.mem_cons_of_mem _ hx)
    | none =>
        exact (hinsert _).mono fun id x hx =>
          List.mem_append_right _ (List.mem_cons_of_mem _ hx)
  have hgame (K : List Fact) (playerId : ℕ) : Sees seeingStmts k inTx K
      (insertFinishedGame playerId s.mode s.score s.startedAt s.finishedAt) fun id => [.gameKey id] :=
    sees_query trivial
  refine Sees.bind hplayer fun playerId => Sees.bind (hgame _ playerId) fun gameId => ?_
  have hlogged (K : List Fact) :
      Sees seeingStmts k inTx K (insertEventRows gameId rows) fun _ => [] := by
    unfold insertEventRows
    split
    · exact Sees.pure (List.nil_subset _)
    · have hrows : Sees seeingStmts k inTx K (query (.insertGameEvents gameId rows)) fun _ => [] :=
        sees_query trivial
      exact hrows.bind fun u => Sees.pure (List.nil_subset _)
  refine Sees.bind (hlogged _) fun count => Sees.pure fun x hx => ?_
  simp only [persistedFacts, List.mem_cons, List.not_mem_nil, or_false] at hx
  simp only [List.mem_append, List.mem_singleton]
  rcases hx with rfl | rfl <;> simp

/-- What a transaction returns it has seen; where it raises that a row is not there, it
has found none, which its end leaves. -/
theorem sees_transaction {body : SqlProg α} {K' : α → List Fact}
    (hbody : Sees seeingStmts k true [] body K') :
    Sees seeingStmts k false [] (transaction body) K' := by
  intro q hq
  refine ⟨trivial, ?_⟩
  rintro _ ⟨rfl, -⟩
  have hstarted : (q.after (.stmt .start) (.ok ())).At k true [] :=
    ⟨hq.lookup, rfl, List.nil_subset _⟩
  refine ⟨_, rfl, (hbody _ hstarted).attempt_bind ?_ ?_⟩
  · intro q' a hq'
    refine ⟨trivial, ?_⟩
    rintro _ ⟨rfl, -⟩
    exact ⟨_, rfl, hq'.lookup, rfl, fun x hx => List.mem_append_left _ (hq'.seen hx)⟩
  · rintro q' e ⟨hq', hnot⟩
    refine ⟨trivial, ?_⟩
    rintro _ ⟨rfl, -⟩
    refine ⟨_, rfl, ⟨hq'.lookup, rfl, List.nil_subset _⟩, fun he => ?_⟩
    obtain ⟨l, hl, hmem⟩ := hnot he
    refine ⟨l, hl, List.mem_append_left _ ?_⟩
    rw [Sight.kept, if_pos (by rw [hq'.inTx]; rfl)]
    exact List.mem_filter.mpr ⟨hmem, rfl⟩

/-- The release of a connection that is in no transaction leaves what has been seen. -/
theorem sees_withConnection {body : SqlProg α} {K' : α → List Fact}
    (hbody : Sees seeingStmts k false [] body K') :
    Sees seeingStmts k false [] (withConnection body) K' := by
  intro q hq
  have hreleased {K : List Fact} {q' : Sight} (hq' : q'.At k false K) :
      (q'.after (.stmt .release) (.ok ())).At k false K ∧
        ∀ x ∈ q'.seen, x ∈ (q'.after (.stmt .release) (.ok ())).seen := by
    have hkept : (q'.after (.stmt .release) (.ok ())).seen = q'.seen := by
      simp [Sight.after, Sight.kept, hq'.inTx, PgCall.facts]
    exact ⟨⟨hq'.lookup, rfl, fun x hx => hkept ▸ hq'.seen hx⟩, fun x hx => hkept ▸ hx⟩
  refine ⟨trivial, ?_⟩
  rintro _ ⟨rfl, -⟩
  have hacquired : (q.after (.stmt .acquire) (.ok ())).At k false [] :=
    ⟨hq.lookup, hq.inTx, List.nil_subset _⟩
  refine ⟨_, rfl, (hbody _ hacquired).attempt_bind ?_ ?_⟩
  · intro q' a hq'
    refine ⟨trivial, ?_⟩
    rintro _ ⟨rfl, -⟩
    exact ⟨_, rfl, (hreleased hq').1⟩
  · rintro q' e ⟨hq', hnot⟩
    refine ⟨trivial, ?_⟩
    rintro _ ⟨rfl, -⟩
    refine ⟨_, rfl, (hreleased hq').1, fun he => ?_⟩
    obtain ⟨l, hl, hmem⟩ := hnot he
    exact ⟨l, hl, (hreleased hq').2 _ hmem⟩

theorem sees_persist (utcnow : DateTime) (s : FinishedSession) :
    Sees seeing k false [] ((persistFinishedSession utcnow s).embed .stmt fun _ r => r)
      persistedFacts := by
  suffices h : Sees seeingStmts k false [] (persistFinishedSession utcnow s) persistedFacts from
    fun q hq => (h q hq).embed (R := seeing) (f := PgCall.stmt) (g := fun _ r => r)
      (fun _ _ hallowed => hallowed) (fun _ _ hr => hr) fun _ _ _ _ hnext => hnext
  refine Sees.bind (L := fun _ => []) ?_ fun rows q hq => ?_
  · refine Sees.ofExcept (fun _ _ => List.nil_subset _) fun e he => ?_
    cases hrows : buildEventRows utcnow s.events with
    | ok rows => simp [hrows] at he
    | error pe =>
        rw [hrows] at he
        cases he
        rfl
  · exact sees_withConnection (sees_transaction (sees_write s rows)) q hq

/-! ### The queries on the pool -/

/-- The queries on the pool. -/
def RestOp.Asks : RestOp → Prop
  | pg _ => False
  | view _ => False
  | _ => True

theorem sees_rest {op : RestOp} (hop : op.Asks) :
    Sees restSeeing k false K (rest op) fun a => op.facts (.ok a) := by
  intro q hq
  have hask : restSeeing.allowed q op ∧ (∀ r, restSeeing.answers op r → Reports r) ∧
      ∀ r, restSeeing.next q op r { q with seen := q.seen ++ op.facts r } := by
    cases op with
    | pg call => exact hop.elim
    | view view => exact hop.elim
    | _ => exact ⟨hq.inTx, fun _ hr => hr, fun _ => rfl⟩
  have hat (r : Except Exc op.Res) :
      Sight.At k false (K ++ op.facts r) { q with seen := q.seen ++ op.facts r } :=
    ⟨hq.lookup, hq.inTx, List.append_subset.mpr ⟨fun _ hx => List.mem_append_left _ (hq.seen hx),
      fun _ hx => List.mem_append_right _ hx⟩⟩
  refine Prog.Yields.perform hask.1 (fun a _ => ⟨_, hask.2.2 _, hat _⟩) fun e he =>
    ⟨_, hask.2.2 _, ⟨(hat (.error e)).lookup, (hat (.error e)).inTx, fun x hx => ?_⟩, fun hnot => ?_⟩
  · exact (hat (.error e)).seen (List.mem_append_left _ hx)
  · exact absurd hnot (by simp [hask.2.1 _ he e rfl])

/-- A program of the repositories that write, among the queries on the pool. -/
theorem sees_onPg {p : PgProg α} {K' : α → List Fact} (hp : Sees seeing k inTx K p K') :
    Sees restSeeing k inTx K (onPg p) K' :=
  fun q hq => (hp q hq).embed (R := restSeeing) (f := RestOp.pg) (g := fun _ r => r)
    (fun _ _ hallowed => hallowed) (fun _ _ hr => hr) fun _ _ _ _ hnext => hnext

theorem sees_roomsOfEach (statuses : List RoomStatus) :
    Sees restSeeing k false K (roomsOfEach statuses) (·.map .room) := by
  induction statuses generalizing K with
  | nil => exact Sees.pure (List.nil_subset _)
  | cons status statuses ih =>
      refine Sees.bind (sees_rest trivial) fun rooms => Sees.bind ih fun others => ?_
      refine Sees.pure fun x hx => ?_
      rw [List.map_append] at hx
      rcases List.mem_append.mp hx with hx | hx
      · exact List.mem_append_left _ (List.mem_append_right _ hx)
      · exact List.mem_append_right _ hx

theorem sees_gamesOfEach (statuses : List GameStatus) :
    Sees restSeeing k false K (gamesOfEach statuses) (·.map .game) := by
  induction statuses generalizing K with
  | nil => exact Sees.pure (List.nil_subset _)
  | cons status statuses ih =>
      refine Sees.bind (sees_rest trivial) fun games => Sees.bind ih fun others => ?_
      refine Sees.pure fun x hx => ?_
      rw [List.map_append] at hx
      rcases List.mem_append.mp hx with hx | hx
      · exact List.mem_append_left _ (List.mem_append_right _ hx)
      · exact List.mem_append_right _ hx

theorem sees_listRooms (status : Option String) :
    Sees restSeeing k false K (ListRooms.execute status) (·.map .room) := by
  unfold ListRooms.execute
  dsimp only
  split
  · exact sees_roomsOfEach _
  · split
    · exact sees_rest trivial
    · exact Sees.throw fun h => Bool.noConfusion h

theorem sees_listGames (status : Option String) :
    Sees restSeeing k false K (ListGames.execute status) (·.map .game) := by
  unfold ListGames.execute
  dsimp only
  split
  · exact sees_gamesOfEach _
  · split
    · exact sees_rest trivial
    · exact Sees.throw fun h => Bool.noConfusion h

theorem sees_getByCode (code : String) :
    Sees restSeeing k false K (onPg (PgRoomRepository.getByCode code))
      fun found => (PgCall.selectRoom code).facts (.ok found) :=
  sees_onPg (sees_perform trivial fun _ => trivial)

theorem sees_joinRoom (roomCode : String) :
    Sees restSeeing (some (.code roomCode)) false K (JoinRoom.execute roomCode)
      fun j => .room j.1 :: j.2.map .game := by
  refine Sees.bind (sees_getByCode roomCode) fun found => ?_
  cases found with
  | none => exact Sees.throw fun _ => ⟨_, rfl, List.mem_append_right _ List.mem_cons_self⟩
  | some room =>
      refine Sees.bind (sees_rest trivial) fun games => Sees.pure fun x hx => ?_
      rcases List.mem_cons.mp hx with rfl | hx
      · exact List.mem_append_left _ (List.mem_append_right _ List.mem_cons_self)
      · exact List.mem_append_right _ hx

theorem sees_eventsOfEach (limit : ℕ) (games : List GameRow) (hgames : games.map .game ⊆ K) :
    Sees restSeeing k false K (eventsOfEach limit games) (·.flatMap gameFacts) := by
  induction games generalizing K with
  | nil => exact Sees.pure (List.nil_subset _)
  | cons game games ih =>
      refine Sees.bind (sees_rest trivial) fun events => ?_
      refine Sees.bind (ih fun x hx => List.mem_append_left _ (hgames (List.mem_cons_of_mem _ hx)))
        fun others => Sees.pure fun x hx => ?_
      rw [List.flatMap_cons, gameFacts] at hx
      rcases List.mem_append.mp hx with hx | hx
      · refine List.mem_append_left _ ?_
        rcases List.mem_cons.mp hx with rfl | hx
        · exact List.mem_append_left _ (hgames List.mem_cons_self)
        · exact List.mem_append_right _ hx
      · exact List.mem_append_right _ hx

theorem sees_roomState (roomCode : String) (eventsLimit : ℕ) :
    Sees restSeeing (some (.code roomCode)) false K (GetRoomState.execute roomCode eventsLimit)
      fun j => .room j.1 :: j.2.flatMap gameFacts := by
  refine Sees.bind (sees_getByCode roomCode) fun found => ?_
  cases found with
  | none => exact Sees.throw fun _ => ⟨_, rfl, List.mem_append_right _ List.mem_cons_self⟩
  | some room =>
      refine Sees.bind (sees_rest trivial) fun games => ?_
      refine Sees.bind (sees_eventsOfEach eventsLimit games fun x hx => List.mem_append_right _ hx)
        fun withEvents => Sees.pure fun x hx => ?_
      rcases List.mem_cons.mp hx with rfl | hx
      · exact List.mem_append_left _ (List.mem_append_left _
          (List.mem_append_right _ List.mem_cons_self))
      · exact List.mem_append_right _ hx

theorem sees_gameState (gameId : ℤ) (eventsLimit : ℕ) :
    Sees restSeeing (some (.gameId gameId)) false K (GetGameState.execute gameId eventsLimit)
      gameFacts := by
  have hlook : Sees restSeeing (some (.gameId gameId)) false K
      (onPg (PgGameRepository.getById gameId))
      fun found => (PgCall.selectGame gameId).facts (.ok found) :=
    sees_onPg (sees_perform trivial fun _ => trivial)
  refine Sees.bind hlook fun found => ?_
  cases found with
  | none => exact Sees.throw fun _ => ⟨_, rfl, List.mem_append_right _ List.mem_cons_self⟩
  | some game =>
      refine Sees.bind (sees_rest trivial) fun events => Sees.pure fun x hx => ?_
      rcases List.mem_cons.mp hx with rfl | hx
      · exact List.mem_append_left _ (List.mem_append_right _ List.mem_cons_self)
      · exact List.mem_append_right _ hx

theorem sees_playerById (playerId : ℤ) :
    Sees restSeeing (some (.playerId playerId)) false K (GetPlayer.executeById playerId)
      fun p => [.player p] := by
  refine Sees.bind (sees_rest trivial) fun found => ?_
  cases found with
  | none => exact Sees.throw fun _ => ⟨_, rfl, List.mem_append_right _ List.mem_cons_self⟩
  | some player => exact Sees.pure fun x hx => List.mem_append_right _ hx

theorem sees_playerByPseudo (raw : String) :
    Sees restSeeing ((normalizeAndValidate raw).toOption.map .pseudo) false K
      (GetPlayer.executeByPseudo raw) fun p => [.player p] := by
  have hreports := normalizeAndValidate_reports raw
  unfold GetPlayer.executeByPseudo
  cases hraw : normalizeAndValidate raw with
  | error e =>
      rw [hraw] at hreports
      exact Sees.throw fun h => absurd h (by simp [hreports e rfl])
  | ok pseudo =>
      have hlook : Sees restSeeing (some (.pseudo pseudo)) false K
          (onPg (PgPlayerRepository.getByPseudo pseudo))
          fun found => (PgCall.selectPlayer pseudo).facts (.ok found) :=
        sees_onPg (sees_perform trivial fun _ => trivial)
      refine hlook.bind fun found => ?_
      cases found with
      | none => exact Sees.throw fun _ => ⟨_, rfl, List.mem_append_right _ List.mem_cons_self⟩
      | some player => exact Sees.pure fun x hx => List.mem_append_right _ hx

theorem sees_history (playerId : ℤ) (mode : Option GameMode) (limit : ℕ) :
    Sees restSeeing (some (.playerId playerId)) false K
      (GetPlayerHistory.executeOnPool playerId mode limit)
      fun h => .player h.1 :: h.2.map fun item => .game item.game := by
  refine Sees.bind (sees_rest trivial) fun found => ?_
  cases found with
  | none => exact Sees.throw fun _ => ⟨_, rfl, List.mem_append_right _ List.mem_cons_self⟩
  | some player =>
      refine Sees.bind (sees_rest trivial) fun games => ?_
      refine Sees.bind (sees_rest trivial) fun best => Sees.pure fun x hx => ?_
      refine List.mem_append_left _ ?_
      rcases List.mem_cons.mp hx with rfl | hx
      · exact List.mem_append_left _ (List.mem_append_right _ List.mem_cons_self)
      · refine List.mem_append_right _ ?_
        rw [List.map_map] at hx
        exact hx

/-! ### The executions -/

theorem backs_ok {K' : α → List Fact} {q : Sight} {a : α} (hq : q.At k false ([] ++ K' a)) :
    q.Backs (.of K' (.ok a)) :=
  ⟨hq.inTx, hq.seen, fun h => Bool.noConfusion h⟩

theorem backs_error {K' : α → List Fact} {q : Sight} {e : Exc} (hq : q.At k false [])
    (hnot : e.notFound = true → ∃ l, k = some l ∧ .absent l ∈ q.seen) :
    q.Backs (.of K' (.error e)) := by
  refine ⟨hq.inTx, List.nil_subset _, fun he => ?_⟩
  rw [hq.lookup]
  exact hnot he

theorem seeing_answering {p : PgProg α} {K' : α → List Fact} {response : Except Exc α → Response}
    (hp : Sees seeing k false [] p K') (htold : ∀ r, (response r).told = .of K' r) :
    (onPg (answering response p)).Follows restSeeing (fun _ => True) (fun _ => True)
      { lookup := k } := by
  have hrespond {q : Sight} {r : Except Exc α} (hq : q.Backs (.of K' r)) :
      (pg (.respond (response r))).Yields seeing (fun _ _ => True) (fun _ _ => True) q :=
    Prog.Yields.perform (by rw [← htold r] at hq; exact hq) (fun _ _ => ⟨_, rfl, trivial⟩)
      fun _ _ => ⟨_, rfl, trivial⟩
  have hanswering : (answering response p).Yields seeing (fun _ _ => True) (fun _ _ => True)
      { lookup := k } :=
    (hp _ ⟨rfl, rfl, List.nil_subset _⟩).attempt_bind (fun q a hq => hrespond (backs_ok hq))
      fun q e hq => hrespond (backs_error hq.1 hq.2)
  exact (hanswering.embed (R := restSeeing) (f := RestOp.pg) (g := fun _ r => r)
    (fun _ _ hallowed => hallowed) (fun _ _ hr => hr) fun _ _ _ _ hnext => hnext).follows
      (fun _ _ _ => trivial) fun _ _ _ => trivial

theorem seeing_viewing {p : RestProg α} {K' : α → List Fact} {view : Except Exc α → View}
    (hp : Sees restSeeing k false [] p K') (htold : ∀ r, (view r).told = .of K' r) :
    (viewing view p).Follows restSeeing (fun _ => True) (fun _ => True) { lookup := k } := by
  have hview {q : Sight} {r : Except Exc α} (hq : q.Backs (.of K' r)) :
      (rest (.view (view r))).Yields restSeeing (fun _ _ => True) (fun _ _ => True) q :=
    Prog.Yields.perform (by rw [← htold r] at hq; exact hq) (fun _ _ => ⟨_, rfl, trivial⟩)
      fun _ _ => ⟨_, rfl, trivial⟩
  have hviewing : (viewing view p).Yields restSeeing (fun _ _ => True) (fun _ _ => True)
      { lookup := k } :=
    (hp _ ⟨rfl, rfl, List.nil_subset _⟩).attempt_bind (fun q a hq => hview (backs_ok hq))
      fun q e hq => hview (backs_error hq.1 hq.2)
  exact hviewing.follows (fun _ _ _ => trivial) fun _ _ _ => trivial

end Programs

theorem seeing_prog (exec : RestExecution) :
    exec.prog.Follows restSeeing (fun _ => True) (fun _ => True) { lookup := exec.lookup } := by
  cases exec with
  | game exec =>
      cases exec with
      | startGame hex pseudo mode roomCode =>
          exact seeing_answering (sees_unitOfWork (sees_startBody hex pseudo mode roomCode))
            fun _ => rfl
      | addGameEvent gameId type points =>
          exact seeing_answering (sees_addGameEvent gameId type points) fun _ => rfl
      | finishGame gameId => exact seeing_answering (sees_finishGame gameId) fun _ => rfl
  | player exec =>
      cases exec with
      | createOrGetPlayer rawPseudo =>
          exact seeing_answering (sees_createOrGetPlayer rawPseudo) fun _ => rfl
      | persistFinishedSession utcnow s =>
          exact seeing_answering (sees_persist utcnow s) fun _ => rfl
  | createRoom hex mode =>
      exact seeing_viewing (sees_onPg (sees_perform trivial fun _ => trivial)) fun _ => rfl
  | read exec =>
      cases exec with
      | listRooms status => exact seeing_viewing (sees_listRooms status) fun _ => rfl
      | listGames status => exact seeing_viewing (sees_listGames status) fun _ => rfl
      | joinRoom roomCode => exact seeing_viewing (sees_joinRoom roomCode) fun _ => rfl
      | roomState roomCode eventsLimit =>
          exact seeing_viewing (sees_roomState roomCode eventsLimit) fun _ => rfl
      | gameState gameId eventsLimit =>
          exact seeing_viewing (sees_gameState gameId eventsLimit) fun _ => rfl
      | player playerId => exact seeing_viewing (sees_playerById playerId) fun _ => rfl
      | playerByPseudo rawPseudo =>
          exact seeing_viewing (sees_playerByPseudo rawPseudo) fun _ => rfl
      | history playerId mode limit =>
          exact seeing_viewing (sees_history playerId mode limit) fun _ => rfl
      | leaderboard mode limit =>
          have hask : Sees restSeeing none false [] (GetLeaderboard.execute mode limit)
              fun _ => [] := sees_rest trivial
          exact seeing_viewing hask fun _ => rfl

/-! ## What the phases say of the server -/

/-- What has been read and told is stored. The rows `X` are stored, and those who are
fresh have read and told nothing that contradicts them. -/
structure Known (X : Fact → Prop) (fresh : ℕ → Prop) (lookups : ℕ → Option Lookup) (v : Rest)
    (phase : ℕ → Sight) : Prop where
  lookup : ∀ i, (phase i).lookup = lookups i
  inTx : ∀ i, v.server.pg.inTransaction i = (phase i).inTx
  seen : ∀ i, ∀ x ∈ (phase i).seen, x.Stored v.server.pg (v.server.pg.owner i)
  told : ∀ i t, v.Tells i t → ∀ x ∈ t.facts, x.Stored v.server.pg none
  base : ∀ x, X x → x.Stored v.server.pg none
  leads : ∀ i, fresh i → ∀ y ∈ (phase i).seen, ∀ x, X x → x.Leads y
  toldLeads : ∀ i t, fresh i → v.Tells i t → ∀ x, X x → (∀ y ∈ t.facts, x.Leads y) ∧
    (t.notFound = true → ∃ l, lookups i = some l ∧ ¬ l.Finds x)

section Steps

variable {X : Fact → Prop} {fresh : ℕ → Prop} {lookups : ℕ → Option Lookup} {v v' : Rest}
  {phase : ℕ → Sight} {i : ℕ} {q : Sight}

theorem leads_absent {x : Fact} {l : Lookup} (h : x.Leads (.absent l)) : ¬ l.Finds x := by
  cases x <;> exact h

/-- What a step of the execution `i` has to do with what it reads and tells. -/
theorem Known.move (h : Known X fresh lookups v phase) (hlookup : q.lookup = (phase i).lookup)
    (hgrows : ∀ owner, owner ≠ some i → v.server.pg.Grows owner owner v'.server.pg)
    (hothers : ∀ j, j ≠ i → v'.server.pg.inTransaction j = v.server.pg.inTransaction j)
    (hinTx : v'.server.pg.inTransaction i = q.inTx)
    (hseen : ∀ x ∈ q.seen, x ∈ (phase i).seen ∧ x.Stored v'.server.pg (v'.server.pg.owner i) ∨
      x.Read v'.server.pg (v'.server.pg.owner i))
    (htells : ∀ j t, v'.Tells j t → v.Tells j t ∨ j = i ∧ (phase i).Backs t) :
    Known X fresh lookups v' (Function.update phase i q) := by
  have hnone : v.server.pg.Grows none none v'.server.pg := hgrows none (Option.some_ne_none i).symm
  have hbase (x : Fact) (hx : X x) : x.Stored v'.server.pg none := (h.base x hx).grows hnone
  refine ⟨fun j => ?_, fun j => ?_, fun j x hx => ?_, fun j t ht x hx => ?_, hbase,
    fun j hj y hy x hx => ?_, fun j t hj ht x hx => ?_⟩
  · by_cases hij : j = i
    · subst hij
      rw [Function.update_self, hlookup, h.lookup]
    · rw [Function.update_of_ne hij, h.lookup]
  · by_cases hij : j = i
    · subst hij
      rw [Function.update_self, hinTx]
    · rw [Function.update_of_ne hij, hothers j hij, h.inTx]
  · by_cases hij : j = i
    · subst hij
      rw [Function.update_self] at hx
      exact (hseen x hx).elim And.right Fact.Read.stored
    · rw [Function.update_of_ne hij] at hx
      have howner : v'.server.pg.owner j = v.server.pg.owner j := by
        rw [Postgres.owner, Postgres.owner, hothers j hij]
      rw [howner]
      refine (h.seen j x hx).grows (hgrows _ fun heq => ?_)
      unfold Postgres.owner at heq
      split at heq
      · exact hij (Option.some.inj heq)
      · cases heq
  · rcases htells j t ht with ht | ⟨rfl, hbacks⟩
    · exact (h.told j t ht x hx).grows hnone
    · have hstored := h.seen j x (hbacks.2.1 hx)
      rw [Postgres.owner_of_not ((h.inTx j).trans hbacks.1)] at hstored
      exact hstored.grows hnone
  · by_cases hij : j = i
    · subst hij
      rw [Function.update_self] at hy
      rcases hseen y hy with ⟨hy, -⟩ | hread
      · exact h.leads j hj y hy x hx
      · exact (hbase x hx).leads hread
    · rw [Function.update_of_ne hij] at hy
      exact h.leads j hj y hy x hx
  · rcases htells j t ht with ht | ⟨rfl, hbacks⟩
    · exact h.toldLeads j t hj ht x hx
    · refine ⟨fun y hy => h.leads j hj y (hbacks.2.1 hy) x hx, fun hnot => ?_⟩
      obtain ⟨l, hl, habsent⟩ := hbacks.2.2 hnot
      exact ⟨l, h.lookup j ▸ hl, leads_absent (h.leads j hj _ habsent x hx)⟩

theorem serve_inTransaction (c : ℕ) (call : PgCall) (v : Server) :
    (serve c call v).2.pg.inTransaction =
      Function.update v.pg.inTransaction c (call.inTxAfter (v.pg.inTransaction c)) := by
  have hplain (hcall : call.Plain) (hafter : call.inTxAfter (v.pg.inTransaction c) =
      v.pg.inTransaction c) : (serve c call v).2.pg.inTransaction =
        Function.update v.pg.inTransaction c (call.inTxAfter (v.pg.inTransaction c)) := by
    rw [hafter, Function.update_eq_self, (serve_addsUnique c hcall v).inTransaction]
  cases call with
  | stmt s =>
      cases s with
      | start => rfl
      | commit => rfl
      | rollback => rfl
      | release => rfl
      | _ => exact hplain trivial rfl
  | _ => exact hplain trivial rfl

/-- The responses are those of before and, of a call that responds, its own. -/
theorem mem_serve_responses {c : ℕ} {call : PgCall} {v : Server} {x : ℕ × Response}
    (hx : x ∈ (serve c call v).2.responses) :
    x ∈ v.responses ∨ ∃ response, call = .respond response ∧ x = (c, response) := by
  have hwrite {α : Type} {r : Except Exc (α × Postgres)} (hx : x ∈ (v.write r).2.responses) :
      x ∈ v.responses := by
    rcases r with e | ⟨a, s⟩ <;> exact hx
  cases call with
  | stmt s => exact Or.inl (responses_stmt c s v ▸ hx)
  | insertRoom code mode status => exact Or.inl (hwrite hx)
  | insertGame playerId roomId mode score status => exact Or.inl (hwrite hx)
  | insertGameEvent gameId type points => exact Or.inl (hwrite hx)
  | addPoints gameId points => exact Or.inl (hwrite hx)
  | finishGame gameId => exact Or.inl (hwrite hx)
  | respond response =>
      exact (List.mem_append.mp hx).imp_right fun hx => ⟨response, rfl, List.mem_singleton.mp hx⟩
  | _ => exact Or.inl hx

/-- What a connection sees it sees after a call, unless this drops it. -/
theorem stored_serve {c : ℕ} {call : PgCall} (hcall : call.Gains) {v : Server} {x : Fact}
    (hx : x.Stored v.pg (v.pg.owner c))
    (hdrops : call.drops = true → v.pg.inTransaction c = false) :
    x.Stored (serve c call v).2.pg ((serve c call v).2.pg.owner c) := by
  have hplain (hcall' : call.Plain) (hends : ¬ call.Ends) :
      x.Stored (serve c call v).2.pg ((serve c call v).2.pg.owner c) := by
    have howner : (serve c call v).2.pg.owner c = v.pg.owner c := by
      rw [Postgres.owner, Postgres.owner, (serve_addsUnique c hcall' v).inTransaction]
    rw [howner]
    exact hx.grows (serve_grows c hcall v (Or.inr hends))
  have hended {s : Postgres} (hs : s.inTransaction = Function.update v.pg.inTransaction c false) :
      s.owner c = none :=
    Postgres.owner_of_not (by rw [hs, Function.update_self])
  have hdropped (hnot : v.pg.inTransaction c = false) :
      x.Stored (v.pg.rollback c) ((v.pg.rollback c).owner c) := by
    rw [hended rfl]
    rw [Postgres.owner_of_not hnot] at hx
    exact hx.grows (.rollback (Option.some_ne_none c).symm)
  cases call with
  | stmt s =>
      cases s with
      | start =>
          have hsome : (v.pg.start c).owner c = some c :=
            Postgres.owner_of_inTransaction (Function.update_self ..)
          change x.Stored (v.pg.start c) ((v.pg.start c).owner c)
          rw [hsome]
          cases htx : v.pg.inTransaction c with
          | true =>
              rw [Postgres.owner_of_inTransaction htx] at hx
              exact hx.grows (.start _ _ c)
          | false =>
              rw [Postgres.owner_of_not htx] at hx
              exact (hx.grows (.start _ _ c)).grows (.of_none _ _)
      | commit =>
          change x.Stored (v.pg.commit c) ((v.pg.commit c).owner c)
          rw [hended rfl]
          cases htx : v.pg.inTransaction c with
          | true =>
              rw [Postgres.owner_of_inTransaction htx] at hx
              exact hx.grows (.commit_self c v.pg)
          | false =>
              rw [Postgres.owner_of_not htx] at hx
              exact hx.grows (.commit (Option.some_ne_none c).symm)
      | rollback => exact hdropped (hdrops rfl)
      | release => exact hdropped (hdrops rfl)
      | _ => exact hplain trivial fun h => h
  | _ => exact hplain trivial fun h => h

theorem kept_stored {c : ℕ} {call : PgCall} (hcall : call.Gains) {v : Server} {q : Sight}
    (htx : v.pg.inTransaction c = q.inTx) (hq : ∀ x ∈ q.seen, x.Stored v.pg (v.pg.owner c)) :
    ∀ x ∈ q.kept call, x ∈ q.seen ∧
      x.Stored (serve c call v).2.pg ((serve c call v).2.pg.owner c) := by
  intro x hx
  unfold Sight.kept at hx
  split at hx
  · obtain ⟨hx, habsent⟩ := List.mem_filter.mp hx
    cases x with
    | absent l => exact ⟨hx, trivial⟩
    | _ => cases habsent
  · next hkeeps =>
      refine ⟨hx, stored_serve hcall (hq x hx) fun hdrops => ?_⟩
      rw [htx]
      simpa [hdrops] using hkeeps

/-- Whoever tells something new has responded or returned what it has read. -/
theorem tells_serveRest {tables : RestTables} {op : RestOp} {j : ℕ} {t : Told}
    (ht : (serveRest tables i op v).2.Tells j t) :
    v.Tells j t ∨ j = i ∧ ((∃ response, op = .pg (.respond response) ∧ response.told = t) ∨
      ∃ view, op = .view view ∧ view.told = t) := by
  cases op with
  | pg call =>
      rcases ht with ⟨response, hmem, rfl⟩ | ⟨view, hmem, rfl⟩
      · rcases mem_serve_responses hmem with hmem | ⟨response', rfl, heq⟩
        · exact Or.inl (Or.inl ⟨response, hmem, rfl⟩)
        · obtain ⟨rfl, rfl⟩ := Prod.mk.inj heq
          exact Or.inr ⟨rfl, Or.inl ⟨response, rfl, rfl⟩⟩
      · exact Or.inl (Or.inr ⟨view, hmem, rfl⟩)
  | view view =>
      rcases ht with ⟨response, hmem, rfl⟩ | ⟨view', hmem, rfl⟩
      · exact Or.inl (Or.inl ⟨response, hmem, rfl⟩)
      · rcases List.mem_append.mp hmem with hmem | hmem
        · exact Or.inl (Or.inr ⟨view', hmem, rfl⟩)
        · obtain ⟨rfl, rfl⟩ := Prod.mk.inj (List.mem_singleton.mp hmem)
          exact Or.inr ⟨rfl, Or.inr ⟨_, rfl, rfl⟩⟩
  | _ => exact Or.inl ht

theorem known_pg {tables : RestTables} (h : Known X fresh lookups v phase) {call : PgCall}
    (hallowed : (phase i).Allows call) :
    Known X fresh lookups (serveRest tables i (.pg call) v).2
      (Function.update phase i ((phase i).after call (serve i call v.server).1)) := by
  have hgains : call.Gains := by
    cases call with
    | addPoints gameId points => exact hallowed
    | _ => trivial
  have htx : (serveRest tables i (.pg call) v).2.server.pg.inTransaction =
      Function.update v.server.pg.inTransaction i
        (call.inTxAfter (v.server.pg.inTransaction i)) := serve_inTransaction i call v.server
  refine h.move rfl (fun owner howner => serve_grows i hgains v.server (Or.inl howner))
    (fun j hij => ?_) ?_ (fun x hx => ?_) fun j t ht => ?_
  · rw [htx, Function.update_of_ne hij]
  · rw [htx, Function.update_self, h.inTx]
    rfl
  · exact (List.mem_append.mp hx).imp (kept_stored hgains (h.inTx i) (h.seen i) x)
      (serve_reads i v.server call x)
  · refine (tells_serveRest ht).imp_right ?_
    rintro ⟨rfl, ⟨response, heq, rfl⟩ | ⟨view, heq, rfl⟩⟩
    · obtain rfl := RestOp.pg.inj heq
      exact ⟨rfl, hallowed⟩
    · cases heq

theorem known_serveRest {tables : RestTables} (h : Known X fresh lookups v phase) {op : RestOp}
    (hallowed : restSeeing.allowed (phase i) op)
    (hnext : restSeeing.next (phase i) op (serveRest tables i op v).1 q) :
    Known X fresh lookups (serveRest tables i op v).2 (Function.update phase i q) := by
  have hquery (hop : op.Asks) (hstate : (serveRest tables i op v).2 = v)
      (hinTx : (phase i).inTx = false)
      (hnext : q = { phase i with
        seen := (phase i).seen ++ op.facts (serveRest tables i op v).1 }) :
      Known X fresh lookups (serveRest tables i op v).2 (Function.update phase i q) := by
    have howner := Postgres.owner_of_not ((h.inTx i).trans hinTx)
    have hreads := serveRest_reads tables i op v (Or.inr howner)
    rw [hstate] at hreads ⊢
    subst hnext
    refine h.move rfl (fun owner _ => .refl owner _) (fun _ _ => rfl) (h.inTx i) (fun x hx => ?_)
      fun j t ht => Or.inl ht
    exact (List.mem_append.mp hx).imp (fun hx => ⟨hx, h.seen i x hx⟩) (hreads x)
  cases op with
  | pg call =>
      subst hnext
      exact known_pg h hallowed
  | view view =>
      subst hnext
      refine h.move rfl (fun owner _ => .refl owner _) (fun _ _ => rfl) (h.inTx i) (fun x hx => ?_)
        fun j t ht => ?_
      · refine Or.inl ?_
        have hx : x ∈ (phase i).seen := by simpa [RestOp.facts] using hx
        exact ⟨hx, h.seen i x hx⟩
      · refine (tells_serveRest ht).imp_right ?_
        rintro ⟨rfl, ⟨response, heq, rfl⟩ | ⟨view', heq, rfl⟩⟩
        · cases heq
        · obtain rfl := RestOp.view.inj heq
          exact ⟨rfl, hallowed⟩
  | _ => exact hquery trivial rfl hallowed hnext

theorem known_servePool {tables : RestTables} (h : Known X fresh lookups v phase)
    {op : Acquiring RestOp} (hallowed : restSeeing.acquiring.allowed (phase i) op)
    (hnext : restSeeing.acquiring.next (phase i) op (servePool tables i op v).1 q) :
    Known X fresh lookups (servePool tables i op v).2 (Function.update phase i q) :=
  acquiring_call (I := Known X fresh lookups)
    (fun _ hallowed hnext => known_serveRest h hallowed hnext) { h with } { h with } hallowed hnext

theorem tells_servePool {tables : RestTables} {op : Acquiring RestOp} {j : ℕ} {t : Told}
    (ht : (servePool tables i op v).2.Tells j t) : v.Tells j t ∨ j = i := by
  cases op with
  | call op => exact (tells_serveRest ht).imp_right And.left
  | _ => exact Or.inl ht

end Steps

/-! ## The errors of the database -/

theorem Unrefused.reports {α : Type} {r : Except Exc α} (h : Unrefused r) : Reports r := by
  intro e he
  have hnone := h e he
  cases e <;> first | rfl | cases hnone

theorem serveRest_reports (tables : RestTables) (c : ℕ) (op : RestOp) (v : Rest) :
    restSeeing.answers op (serveRest tables c op v).1 := by
  cases op with
  | pg call => exact ⟨serve_answers c call v.server, (serve_unrefused c call v.server).reports⟩
  | selectPlayerById id => exact (Unrefused.guarded _ _).reports
  | selectEvents gameId limit => exact (Unrefused.guarded _ _).reports
  | _ => exact (Unrefused.ok _).reports

/-! ## Every interleaving -/

section Runs

variable {tables : RestTables} {size : ℕ} {s : Postgres} {execs : List RestExecution}

/-- An execution that has made no call. -/
def RestExecution.sight (execs : List RestExecution) (i : ℕ) : Sight :=
  { lookup := execs[i]?.bind RestExecution.lookup }

theorem not_tells_start (s : Postgres) (i : ℕ) (t : Told) :
    ¬ Rest.Tells { server := { pg := s } } i t := by
  rintro (⟨_, hmem, -⟩ | ⟨_, hmem, -⟩) <;> cases hmem

theorem known_start (hidle : ∀ c, s.Idle c) (execs : List RestExecution) :
    (RestPool.start s execs).Keeps restSeeing.acquiring (fun _ => True) (fun i => i) execs.length
      fun v phase => Known (fun _ => False) (fun _ => True)
        (fun i => execs[i]?.bind RestExecution.lookup) v phase ∧
          phase = RestExecution.sight execs := by
  refine RestPool.keeps_start s execs (RestExecution.sight execs) (fun i exec hexec => ?_)
    ⟨?_, rfl⟩
  · rw [RestExecution.sight, hexec]
    exact (seeing_prog exec).acquiring false
  · have hnot := not_tells_start s
    exact
      { lookup := fun i => rfl
        inTx := fun i => (hidle i).inTransaction
        seen := fun i x hx => by cases hx
        told := fun i t ht => (hnot i t ht).elim
        base := fun x hx => hx.elim
        leads := fun i _ y hy => by cases hy
        toldLeads := fun i t _ ht => (hnot i t ht).elim }

variable (tables size) in
/-- What has been told is stored, and told by executions that have made a call. -/
theorem told_run (hidle : ∀ c, s.Idle c) (execs : List RestExecution) (schedule : List ℕ) :
    (schedule.foldl (RestPool.step tables size) (RestPool.start s execs)).Keeps
      restSeeing.acquiring (fun _ => True) (fun i => i) execs.length fun v phase =>
        (Known (fun _ => False) (fun _ => True) (fun i => execs[i]?.bind RestExecution.lookup) v
          phase ∧ ∀ j t, v.Tells j t → j ∈ schedule) ∧
        ∀ j, j ∉ schedule → phase j = RestExecution.sight execs j := by
  refine Pool.run_keeps_fresh (acquiring_answers (serveRest_reports tables))
    (fun i op q phase v _ hi h hallowed _ hnext => ?_) ?_
  · refine ⟨known_servePool h.1 hallowed hnext, fun j t ht => ?_⟩
    rcases tells_servePool ht with ht | rfl
    · exact h.2 j t ht
    · exact hi
  · obtain ⟨hlength, hlabel, phase, hfollow, hknown, hphase⟩ := known_start hidle execs
    exact ⟨hlength, hlabel, phase, hfollow, ⟨hknown, fun j t ht =>
      (not_tells_start s j t ht).elim⟩, hphase⟩

variable {before after : List ℕ} {i j : ℕ} {t t' : Told}

variable (tables size execs) in
/-- What has been told before is known by those who begin after. -/
theorem known_run (hidle : ∀ c, s.Idle c) (before after : List ℕ) :
    ((before ++ after).foldl (RestPool.step tables size) (RestPool.start s execs)).Keeps
      restSeeing.acquiring (fun _ => True) (fun i => i) execs.length
      (Known (fun x => ∃ i t, (before.foldl (RestPool.step tables size)
          (RestPool.start s execs)).state.Tells i t ∧ x ∈ t.facts) (· ∉ before)
        fun i => execs[i]?.bind RestExecution.lookup) := by
  rw [List.foldl_append]
  refine Pool.run_keeps (C := fun _ _ _ => True) (acquiring_answers (serveRest_reports tables))
    (fun i op q phase v _ h hallowed _ _ hnext => known_servePool h hallowed hnext) ?_
    (Runs.along_of_forall (fun _ _ _ _ => trivial) _ _)
  obtain ⟨hlength, hlabel, phase, hfollow, ⟨hknown, htells⟩, hinit⟩ :=
    told_run tables size hidle execs before
  refine ⟨hlength, hlabel, phase, hfollow, hknown.lookup, hknown.inTx, hknown.seen, hknown.told,
    ?_, fun j hj y hy => ?_, fun j t hj ht => absurd (htells j t ht) hj⟩
  · rintro x ⟨i, t, ht, hx⟩
    exact hknown.told i t ht x hx
  · rw [hinit j hj] at hy
    cases hy

/-- Whatever the executions and their interleaving: where an execution that begins after
another one has answered shows a row that this one has shown, it shows it as it was;
a game it shows as it was or later, with no fewer points, finished where it was. -/
theorem told_later (hidle : ∀ c, s.Idle c)
    (ht : (before.foldl (RestPool.step tables size) (RestPool.start s execs)).state.Tells i t)
    (hj : j ∉ before)
    (ht' : ((before ++ after).foldl (RestPool.step tables size)
      (RestPool.start s execs)).state.Tells j t') :
    ∀ x ∈ t.facts, ∀ y ∈ t'.facts, x.Leads y := by
  intro x hx y hy
  obtain ⟨-, -, phase, -, hknown⟩ :=
    known_run tables size execs hidle before after
  exact (hknown.toldLeads j t' hj ht' x ⟨i, t, ht, hx⟩).1 y hy

/-- A game is started, then points are added to it. -/
theorem told_later_pointsAdded :
    let game : GameRow :=
      { id := 1, playerId := 1, roomId := some 1, mode := .solo, score := 0, status := .playing,
        startedAt := default, finishedAt := none }
    let event : GameEventRow :=
      { id := 1, gameId := 1, type := .gameStarted, points := 0, occuredAt := default }
    let hit : GameEventRow :=
      { id := 2, gameId := 1, type := .bumperHit, points := 10, occuredAt := default }
    let started : Started :=
      { player := { id := 1, pseudo := "ABC" }
        room := { id := 1, code := "1F2E3D", mode := .solo, status := .waiting }, game, event }
    ∀ x ∈ started.facts, ∀ y ∈ playedFacts ({ game with score := 10 }, hit), x.Leads y := by
  intro game event hit started
  let tables : RestTables :=
    { order := { rows := fun xs => xs, perm := fun _ => .refl _ }, createdAt := fun _ => default }
  let execs : List RestExecution := [.game (.startGame "1f2e3d4c" "ABC" .solo none),
    .game (.addGameEvent 1 .bumperHit 10)]
  have hstarted : (0, Response.started (.ok started)) ∈
      ((List.replicate 10 0).foldl (RestPool.step tables 1)
        (RestPool.start { clock := fun _ => default } execs)).state.server.responses := by
    decide +kernel
  have hadded : (1, Response.added (.ok ({ game with score := 10 }, hit))) ∈
      ((List.replicate 10 0 ++ List.replicate 10 1).foldl (RestPool.step tables 1)
        (RestPool.start { clock := fun _ => default } execs)).state.server.responses := by
    decide +kernel
  exact told_later (Postgres.idle_empty _) (Or.inl ⟨_, hstarted, rfl⟩) (by decide)
    (Or.inl ⟨_, hadded, rfl⟩)

/-- Whatever the executions and their interleaving: an execution that begins after
another one has answered finds the rows that this one has shown. -/
theorem told_found (hidle : ∀ c, s.Idle c)
    (ht : (before.foldl (RestPool.step tables size) (RestPool.start s execs)).state.Tells i t)
    (hj : j ∉ before) {exec : RestExecution} (hexec : execs[j]? = some exec)
    (ht' : ((before ++ after).foldl (RestPool.step tables size)
      (RestPool.start s execs)).state.Tells j t') {x : Fact} (hx : x ∈ t.facts) {l : Lookup}
    (hl : exec.lookup = some l) (hfinds : l.Finds x) : t'.notFound = false := by
  obtain ⟨-, -, phase, -, hknown⟩ :=
    known_run tables size execs hidle before after
  by_contra hnot
  obtain ⟨l', hl', habsent⟩ :=
    (hknown.toldLeads j t' hj ht' x ⟨i, t, ht, hx⟩).2 (by simpa using hnot)
  rw [hexec, Option.bind_some, hl] at hl'
  obtain rfl := Option.some.inj hl'
  exact habsent hfinds

/-- A room is created, then joined. -/
theorem told_found_joined :
    let tables : RestTables :=
      { order := { rows := fun xs => xs, perm := fun _ => .refl _ }, createdAt := fun _ => default }
    let execs : List RestExecution := [.createRoom "1f2e3d4c" .solo, .read (.joinRoom "1F2E3D")]
    ∃ t, ((List.replicate 4 0 ++ List.replicate 7 1).foldl (RestPool.step tables 1)
      (RestPool.start { clock := fun _ => default } execs)).state.Tells 1 t ∧ t.notFound = false := by
  intro tables execs
  let room : RoomRow := { id := 1, code := "1F2E3D", mode := .solo, status := .waiting }
  have hcreated : (0, View.created (.ok room)) ∈ ((List.replicate 4 0).foldl (RestPool.step tables 1)
      (RestPool.start { clock := fun _ => default } execs)).state.views := by
    decide +kernel
  have hjoined : (1, View.joined (.ok (room, []))) ∈
      ((List.replicate 4 0 ++ List.replicate 7 1).foldl (RestPool.step tables 1)
        (RestPool.start { clock := fun _ => default } execs)).state.views := by
    decide +kernel
  have hexec : execs[1]? = some (.read (.joinRoom "1F2E3D")) := rfl
  refine ⟨_, Or.inr ⟨_, hjoined, rfl⟩, ?_⟩
  exact told_found (Postgres.idle_empty _) (Or.inr ⟨_, hcreated, rfl⟩) (by decide) hexec
    (Or.inr ⟨_, hjoined, rfl⟩) (x := .room room) (l := .code "1F2E3D") List.mem_cons_self rfl rfl

end Runs

end FlipperBack
