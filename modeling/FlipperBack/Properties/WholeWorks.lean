import FlipperBack.Properties.Ledgers

/-!
# Whole works

However the executions of the REST flow take turns, what is stored for everyone is what a
history of works has made of it, one after the other, and each execution has only
written whole works (`works_whole`). Who has been answered has written what the answer
says, and who has been refused nothing (`works_answered`).
-/

namespace FlipperBack

open Effects Python

/-- The works of the execution `i`. -/
def worksOf (i : ℕ) (history : List (ℕ × Work)) : List Work :=
  (history.filter fun x => x.1 = i).map Prod.snd

theorem worksOf_append_self (i : ℕ) (history : List (ℕ × Work)) (new : List Work) :
    worksOf i (history ++ new.map fun w => (i, w)) = worksOf i history ++ new := by
  simp [worksOf, List.filter_map, Function.comp_def]

theorem worksOf_append_of_ne {i j : ℕ} (hij : j ≠ i) (history : List (ℕ × Work))
    (new : List Work) : worksOf j (history ++ new.map fun w => (i, w)) = worksOf j history := by
  simp [worksOf, List.filter_map, Function.comp_def, hij.symm]

/-- The execution `i` has been answered `a`. -/
def Rest.Answers (v : Rest) (i : ℕ) : Answer → Prop
  | .response response => (i, response) ∈ v.server.responses
  | .view view => (i, view) ∈ v.views

/-! ## What a call adds to the ledger -/

section Calls

variable {c : ℕ} {v : Server} {q : Ledger} {call : PgCall}

/-- The works that a call adds. -/
def Ledger.newWorks (q : Ledger) (call : PgCall) (r : Except Exc call.Res) : List Work :=
  if q.inTx then if call.commits then [.insert q.pending] else []
  else (call.inserts r).works ++ call.updates r

theorem Ledger.works_after (q : Ledger) (call : PgCall) (r : Except Exc call.Res) :
    (q.after call r).works = q.works ++ q.newWorks call r := by
  unfold Ledger.after Ledger.newWorks
  cases q.inTx <;> cases call.commits <;> simp

theorem Ledger.newWorks_nil {r : Except Exc call.Res} (hcommits : call.commits = false)
    (hinserts : call.inserts r = Rows.empty) (hupdates : call.updates r = []) :
    q.newWorks call r = [] := by
  unfold newWorks
  rw [hcommits, hinserts, hupdates]
  cases q.inTx <;> rfl

theorem updates_of_not (hupdates : ¬ call.Updates) (r : Except Exc call.Res) :
    call.updates r = [] := by
  cases call with
  | addPoints gameId points => exact (hupdates trivial).elim
  | finishGame gameId => exact (hupdates trivial).elim
  | _ => rfl

/-- The works have been done, and the transaction of `c` has these rows. -/
structure Postgres.Books (c : ℕ) (s s' : Postgres) (works : List Work) (rows : Rows) : Prop where
  content : Content.Same s'.content (works.foldl Content.apply s.content)
  pending : s'.pending c = rows
  others : ∀ d, d ≠ c → s'.pending d = s.pending d

section Books

variable (htx : v.pg.inTransaction c = q.inTx) (hpending : v.pg.pending c = q.pending)
  (hclosed : q.inTx = false → q.pending = Rows.empty)

include htx hpending hclosed

theorem books_inserts (hbounds : ¬ call.Bounds) (hupdates : ¬ call.Updates) :
    v.pg.Books c (serve c call v).2.pg (q.newWorks call (serve c call v).1)
      (q.after call (serve c call v).1).pending := by
  have hinserts := serve_inserts c hupdates hbounds v
  obtain ⟨hinTx, -, hcommits⟩ := plain_of_not_bounds hbounds q.inTx
  unfold Ledger.newWorks Ledger.after
  rw [updates_of_not hupdates, hinTx, hcommits, List.append_nil, if_neg Bool.false_ne_true]
  cases hq : q.inTx with
  | true =>
      rw [Postgres.owner_of_inTransaction (htx.trans hq)] at hinserts
      refine ⟨?_, ?_, fun d hd => hinserts.pending_of_ne hd⟩
      · rw [if_pos rfl, List.foldl_nil, hinserts.content_some]
        exact .refl _
      · rw [if_pos rfl, ← hpending]
        exact hinserts.pending_self
  | false =>
      rw [Postgres.owner_of_not (htx.trans hq)] at hinserts
      refine ⟨?_, ?_, fun d _ => hinserts.pending_none⟩
      · rw [if_neg Bool.false_ne_true, Content.foldl_works, hinserts.content_none]
        exact .refl _
      · rw [if_neg Bool.false_ne_true, ← hclosed hq, ← hpending]
        exact hinserts.pending_none

omit htx in
theorem books_updates (hupdates : call.Updates) (hallows : q.Allows call) :
    v.pg.Books c (serve c call v).2.pg (q.newWorks call (serve c call v).1)
      (q.after call (serve c call v).1).pending := by
  have hserved := serve_updates c hupdates v
  have hupdate : q.inTx = false ∧ ∀ r, call.inserts r = Rows.empty := by
    cases call with
    | addPoints gameId points => exact ⟨hallows.1, fun r => rfl⟩
    | finishGame gameId => exact ⟨hallows, fun r => rfl⟩
    | _ => exact hupdates.elim
  have hinTx : call.inTxAfter q.inTx = false := by
    cases call with
    | addPoints gameId points => exact hupdate.1
    | finishGame gameId => exact hupdate.1
    | _ => exact hupdates.elim
  unfold Ledger.newWorks Ledger.after
  rw [hinTx, hupdate.1, hupdate.2]
  refine ⟨?_, ?_, fun d _ => hserved.2 d⟩
  · rw [hserved.1]
    exact .refl _
  · rw [hserved.2, hpending, hclosed hupdate.1]
    rfl

omit htx in
theorem books_bounds (hbounds : call.Bounds) :
    v.pg.Books c (serve c call v).2.pg (q.newWorks call (serve c call v).1)
      (q.after call (serve c call v).1).pending := by
  have hdropped : v.pg.Books c (v.pg.rollback c) [] Rows.empty := by
    refine ⟨?_, v.pg.pending_rollback_self c, fun d hd => v.pg.pending_rollback_of_ne c hd⟩
    rw [v.pg.content_rollback c]
    exact .refl _
  cases call with
  | stmt s =>
      cases s with
      | start =>
          refine ⟨?_, ?_, fun d _ => rfl⟩
          · have hnew : q.newWorks (.stmt .start) (.ok ()) = [] := Ledger.newWorks_nil rfl rfl rfl
            change Content.Same (v.pg.start c).content ((q.newWorks (.stmt .start) (.ok ())).foldl
              Content.apply v.pg.content)
            rw [hnew]
            exact .refl _
          · change v.pg.pending c = q.pending.append Rows.empty
            rw [Rows.append_empty, hpending]
      | commit =>
          refine ⟨?_, v.pg.pending_commit_self c, fun d hd => v.pg.pending_commit_of_ne c hd⟩
          have hcommit := v.pg.content_commit c
          rw [hpending] at hcommit
          change Content.Same (v.pg.commit c).content ((q.newWorks (.stmt .commit) (.ok ())).foldl
            Content.apply v.pg.content)
          unfold Ledger.newWorks
          cases hq : q.inTx with
          | true => exact hcommit
          | false =>
              rw [hclosed hq, Content.apply_empty] at hcommit
              exact hcommit
      | rollback =>
          have hnew : q.newWorks (.stmt .rollback) (.ok ()) = [] :=
            Ledger.newWorks_nil rfl rfl rfl
          exact hnew ▸ hdropped
      | release =>
          have hnew : q.newWorks (.stmt .release) (.ok ()) = [] :=
            Ledger.newWorks_nil rfl rfl rfl
          exact hnew ▸ hdropped
      | _ => exact hbounds.elim
  | _ => exact hbounds.elim

/-- What is stored for everyone after a call, and the rows of the transactions. -/
theorem serve_books (hallows : q.Allows call) :
    v.pg.Books c (serve c call v).2.pg (q.newWorks call (serve c call v).1)
      (q.after call (serve c call v).1).pending := by
  by_cases hbounds : call.Bounds
  · exact books_bounds hpending hclosed hbounds
  · by_cases hupdates : call.Updates
    · exact books_updates hpending hclosed hupdates hallows
    · exact books_inserts htx hpending hclosed hbounds hupdates

end Books

end Calls

/-! ## What the ledgers say of the server -/

/-- What is stored for everyone is what the history has made of `s₀`, and the ledgers of
the executions have it, each its own part. -/
structure Recorded (execs : List RestExecution) (s₀ : Content) (history : List (ℕ × Work))
    (v : Rest) (phase : ℕ → Ledger) : Prop where
  exec : ∀ i, (phase i).exec = execs[i]?
  inTx : ∀ i, v.server.pg.inTransaction i = (phase i).inTx
  seen : ∀ i, ∀ x ∈ (phase i).seen, x.Stored v.server.pg (v.server.pg.owner i)
  pending : ∀ i, v.server.pg.pending i = (phase i).pending
  closed : ∀ i, (phase i).inTx = false → (phase i).pending = Rows.empty
  content : Content.Same v.server.pg.content ((history.map Prod.snd).foldl Content.apply s₀)
  works : ∀ i, worksOf i history = (phase i).works
  bound : ∀ x ∈ history, x.1 < execs.length
  answers : ∀ i a, v.Answers i a → (phase i).answer = some a
  accounts : ∀ i a, (phase i).answer = some a → (phase i).Accounts a

section Steps

variable {execs : List RestExecution} {s₀ : Content} {history : List (ℕ × Work)} {v v' : Rest}
  {phase : ℕ → Ledger} {i : ℕ} {q : Ledger}

/-- What a step of the execution `i` has to do with its ledger. -/
theorem Recorded.move (h : Recorded execs s₀ history v phase) (hi : i < execs.length)
    {new : List Work} (hexec : q.exec = (phase i).exec)
    (hinTx : ∀ j, v'.server.pg.inTransaction j = (Function.update phase i q j).inTx)
    (hgrows : ∀ owner, owner ≠ some i → v.server.pg.Grows owner owner v'.server.pg)
    (hseen : ∀ x ∈ q.seen, x.Stored v'.server.pg (v'.server.pg.owner i))
    (hbooks : v.server.pg.Books i v'.server.pg new q.pending)
    (hclosed : q.inTx = false → q.pending = Rows.empty)
    (hworks : q.works = (phase i).works ++ new) (hopen : (phase i).answer = none)
    (hanswers : ∀ j a, v'.Answers j a → v.Answers j a ∨ j = i ∧ q.answer = some a)
    (haccounts : ∀ a, q.answer = some a → q.Accounts a) :
    Recorded execs s₀ (history ++ new.map fun w => (i, w)) v' (Function.update phase i q) := by
  refine ⟨fun j => ?_, hinTx, fun j x hx => ?_, fun j => ?_, fun j hj => ?_, ?_, fun j => ?_,
    fun x hx => ?_, fun j a ha => ?_, fun j a ha => ?_⟩
  · by_cases hij : j = i
    · subst hij
      rw [Function.update_self, hexec, h.exec]
    · rw [Function.update_of_ne hij, h.exec]
  · by_cases hij : j = i
    · subst hij
      rw [Function.update_self] at hx
      exact hseen x hx
    · have htx := hinTx j
      rw [Function.update_of_ne hij] at hx htx
      have howner : v'.server.pg.owner j = v.server.pg.owner j := by
        rw [Postgres.owner, Postgres.owner, htx, h.inTx]
      rw [howner]
      refine (h.seen j x hx).grows (hgrows _ fun heq => ?_)
      unfold Postgres.owner at heq
      split at heq
      · exact hij (Option.some.inj heq)
      · cases heq
  · by_cases hij : j = i
    · subst hij
      rw [Function.update_self, hbooks.pending]
    · rw [Function.update_of_ne hij, hbooks.others j hij, h.pending]
  · by_cases hij : j = i
    · subst hij
      rw [Function.update_self] at hj ⊢
      exact hclosed hj
    · rw [Function.update_of_ne hij] at hj ⊢
      exact h.closed j hj
  · have hnew : (new.map fun w => (i, w)).map Prod.snd = new := by simp
    rw [List.map_append, hnew, List.foldl_append]
    exact hbooks.content.trans (h.content.foldl new)
  · by_cases hij : j = i
    · subst hij
      rw [Function.update_self, worksOf_append_self, h.works, hworks]
    · rw [Function.update_of_ne hij, worksOf_append_of_ne hij, h.works]
  · rcases List.mem_append.mp hx with hx | hx
    · exact h.bound x hx
    · obtain ⟨w, -, rfl⟩ := List.mem_map.mp hx
      exact hi
  · by_cases hij : j = i
    · subst hij
      rw [Function.update_self]
      rcases hanswers j a ha with ha | ⟨-, ha⟩
      · cases hopen.symm.trans (h.answers j a ha)
      · exact ha
    · rw [Function.update_of_ne hij]
      exact h.answers j a ((hanswers j a ha).resolve_right fun h => hij h.1)
  · by_cases hij : j = i
    · subst hij
      rw [Function.update_self] at ha ⊢
      exact haccounts a ha
    · rw [Function.update_of_ne hij] at ha ⊢
      exact h.accounts j a ha

theorem answers_serve {tables : RestTables} {call : PgCall} {j : ℕ} {a : Answer}
    (ha : (serveRest tables i (.pg call) v).2.Answers j a) :
    v.Answers j a ∨ j = i ∧ call.answer = some a := by
  cases a with
  | response response =>
      refine (mem_serve_responses ha).imp_right ?_
      rintro ⟨response', rfl, heq⟩
      obtain ⟨rfl, rfl⟩ := Prod.mk.inj heq
      exact ⟨rfl, rfl⟩
  | view view => exact Or.inl ha

theorem recorded_pg {tables : RestTables} (h : Recorded execs s₀ history v phase)
    (hi : i < execs.length) {call : PgCall} (hopen : (phase i).answer = none)
    (hallows : (phase i).Allows call) :
    ∃ history', Recorded execs s₀ history' (serveRest tables i (.pg call) v).2
      (Function.update phase i ((phase i).after call (serve i call v.server).1)) := by
  have hgains : call.Gains := by
    cases call with
    | addPoints gameId points => exact hallows.2
    | _ => trivial
  have htx : (serveRest tables i (.pg call) v).2.server.pg.inTransaction =
      Function.update v.server.pg.inTransaction i
        (call.inTxAfter (v.server.pg.inTransaction i)) := serve_inTransaction i call v.server
  refine ⟨_, h.move hi rfl (fun j => ?_)
    (fun owner howner => serve_grows i hgains v.server (Or.inl howner)) (fun x hx => ?_)
    (serve_books (h.inTx i) (h.pending i) (h.closed i) hallows) (fun hq => ?_)
    (Ledger.works_after _ _ _) hopen (fun j a ha => answers_serve ha) fun a ha => ?_⟩
  · by_cases hij : j = i
    · subst hij
      rw [htx, Function.update_self, Function.update_self, h.inTx]
      rfl
    · rw [htx, Function.update_of_ne hij, Function.update_of_ne hij, h.inTx]
  · rcases List.mem_append.mp hx with hx | hx
    · split at hx
      · cases hx
      · next hkeeps =>
          refine stored_serve hgains (h.seen i x hx) fun hdrops => ?_
          rw [h.inTx]
          simpa [hdrops] using hkeeps
    · exact (serve_reads i v.server call x hx).stored
  · exact if_neg (by rw [show call.inTxAfter (phase i).inTx = false from hq]; simp)
  · cases call with
    | respond response =>
        obtain rfl := Option.some.inj ha
        have haccounts : (phase i).Accounts (.response response) := hallows
        refine ⟨haccounts.1, fun exec hexec => ?_⟩
        have hworks : ((phase i).after (.respond response) (.ok ())).works = (phase i).works := by
          rw [Ledger.works_after, Ledger.newWorks_nil rfl rfl rfl, List.append_nil]
        change exec.Accounts _ ((phase i).after (.respond response) (.ok ())).works _
        rw [hworks]
        exact (haccounts.2 exec hexec).mono fun x hx => List.mem_append_left _ hx
    | _ => cases ha

theorem recorded_serveRest {tables : RestTables} (h : Recorded execs s₀ history v phase)
    (hi : i < execs.length) {op : RestOp} (hallowed : restRecording.allowed (phase i) op)
    (hnext : restRecording.next (phase i) op (serveRest tables i op v).1 q) :
    ∃ history', Recorded execs s₀ history' (serveRest tables i op v).2
      (Function.update phase i q) := by
  have hquery (hstate : (serveRest tables i op v).2 = v) (hnext : q = phase i) :
      ∃ history', Recorded execs s₀ history' (serveRest tables i op v).2
        (Function.update phase i q) := by
    rw [hstate, hnext, Function.update_eq_self]
    exact ⟨history, h⟩
  cases op with
  | pg call =>
      subst hnext
      exact recorded_pg h hi hallowed.1 hallowed.2.2
  | view view =>
      subst hnext
      have hbooks : v.server.pg.Books i v.server.pg [] (phase i).pending :=
        ⟨.refl _, h.pending i, fun _ _ => rfl⟩
      refine ⟨_, h.move hi rfl (fun j => ?_) (fun owner _ => .refl owner _) (h.seen i) hbooks
        (h.closed i) (List.append_nil _).symm hallowed.1 (fun j a ha => ?_) fun a ha => ?_⟩
      · by_cases hij : j = i
        · subst hij
          rw [Function.update_self]
          exact h.inTx j
        · rw [Function.update_of_ne hij]
          exact h.inTx j
      · cases a with
        | response response => exact Or.inl ha
        | view view' =>
            refine (List.mem_append.mp ha).imp_right fun ha => ?_
            obtain ⟨rfl, rfl⟩ := Prod.mk.inj (List.mem_singleton.mp ha)
            exact ⟨rfl, rfl⟩
      · obtain rfl := Option.some.inj ha
        exact hallowed.2.2
  | _ => exact hquery rfl hnext

theorem recorded_servePool {tables : RestTables} (h : Recorded execs s₀ history v phase)
    (hi : i < execs.length) {op : Acquiring RestOp}
    (hallowed : restRecording.acquiring.allowed (phase i) op)
    (hnext : restRecording.acquiring.next (phase i) op (servePool tables i op v).1 q) :
    ∃ history', Recorded execs s₀ history' (servePool tables i op v).2
      (Function.update phase i q) := by
  have hanswers {holders : List ℕ} : ∀ j a,
      Rest.Answers { v with holders } j a → (phase j).answer = some a := by
    intro j a ha
    refine h.answers j a ?_
    cases a <;> exact ha
  exact acquiring_call (I := fun v phase => ∃ history', Recorded execs s₀ history' v phase)
    (fun _ hallowed hnext => recorded_serveRest h hi hallowed hnext)
    ⟨history, { h with answers := hanswers }⟩ ⟨history, { h with answers := hanswers }⟩
    hallowed hnext

end Steps

/-! ## Every interleaving -/

section Runs

variable {tables : RestTables} {size : ℕ} {s : Postgres}

theorem Postgres.Idle.pending {s : Postgres} {c : ℕ} (h : s.Idle c) :
    s.pending c = Rows.empty := by
  have hnone {ρ : Type} {key : ρ → ℕ} {t : TxTable ℕ key} (ht : NoneOf c t.rows) :
      t.pending c = [] := by
    rw [TxTable.pending, List.map_eq_nil_iff, List.filter_eq_nil_iff]
    exact fun x hx => by simpa using ht x hx
  simp [Postgres.pending, hnone h.players, hnone h.rooms, hnone h.games, hnone h.gameEvents,
    Rows.empty]

theorem serveRest_recording (tables : RestTables) (c : ℕ) (op : RestOp) (v : Rest) :
    restRecording.answers op (serveRest tables c op v).1 := by
  cases op with
  | pg call => exact ⟨serve_returns c call v.server, serve_unrefused c call v.server⟩
  | _ => trivial

variable (tables size) in
theorem recorded_run (hidle : ∀ c, s.Idle c) (execs : List RestExecution) (schedule : List ℕ) :
    (schedule.foldl (RestPool.step tables size) (RestPool.start s execs)).Keeps
      restRecording.acquiring Ledger.Sound (fun i => i) execs.length
      fun v phase => ∃ history, Recorded execs s.content history v phase := by
  refine Pool.run_keeps (C := fun _ _ _ => True) (acquiring_answers (serveRest_recording tables))
    (fun i op q phase v hi h hallowed _ _ hnext => ?_) ?_
    (Runs.along_of_forall (fun _ _ _ _ => trivial) _ _)
  · obtain ⟨history, h⟩ := h
    exact recorded_servePool h hi hallowed hnext
  · refine RestPool.keeps_start s execs (fun i => { exec := execs[i]? }) (fun i exec hexec => ?_)
      ⟨[], ?_⟩
    · rw [hexec]
      exact (recording_prog exec).acquiring false
    · exact
        { exec := fun i => rfl
          inTx := fun i => (hidle i).inTransaction
          seen := fun i x hx => (List.not_mem_nil hx).elim
          pending := fun i => (hidle i).pending
          closed := fun i _ => rfl
          content := .refl _
          works := fun i => rfl
          bound := fun x hx => (List.not_mem_nil hx).elim
          answers := fun i a ha => by cases a <;> cases ha
          accounts := fun i a ha => by cases ha }

/-- An execution that follows the protocol has written what it may have written: by
induction on its program, up to the next call that is not for a connection. -/
theorem sound_of_follows {q : Ledger} {p : Prog Exc (Acquiring.Res RestOp.Res) Unit}
    (hp : p.Follows restRecording.acquiring Ledger.Sound Ledger.Sound q) : q.Sound := by
  induction p with
  | ret a => exact hp
  | raise e => exact hp
  | call op k ih =>
      cases op with
      | call op => exact hp.1.2.1
      | acquire =>
          obtain ⟨_, rfl, hk⟩ := hp.2 (.ok ()) rfl
          exact ih _ hk
      | release =>
          obtain ⟨_, rfl, hk⟩ := hp.2 (.ok ()) rfl
          exact ih _ hk

/-- Whatever the executions and their interleaving: what is stored for everyone is what a
history of works has made of the database, one work after the other, and each execution
has only written whole works. -/
theorem works_whole (hidle : ∀ c, s.Idle c) (execs : List RestExecution) (schedule : List ℕ) :
    let pg := (schedule.foldl (RestPool.step tables size) (RestPool.start s execs)).state.server.pg
    ∃ history : List (ℕ × Work),
      Content.Same pg.content ((history.map Prod.snd).foldl Content.apply s.content) ∧
      (∀ x ∈ history, x.1 < execs.length) ∧
      ∀ (i : ℕ) (exec : RestExecution), execs[i]? = some exec →
        exec.Wrote (·.Stored pg none) (worksOf i history) := by
  intro pg
  obtain ⟨hlength, -, phase, hfollow, history, h⟩ :=
    recorded_run tables size hidle execs schedule
  refine ⟨history, h.content, h.bound, fun i exec hexec => ?_⟩
  rw [h.works]
  obtain ⟨hi, -⟩ := List.getElem?_eq_some_iff.mp hexec
  have hsound : (phase i).Sound :=
    sound_of_follows (hfollow i _ _ (List.getElem?_eq_getElem (hlength ▸ hi)))
  cases htx : (phase i).inTx with
  | true =>
      rw [hsound.inTx htx]
      exact exec.wrote_nil
  | false =>
      refine (hsound.wrote exec ((h.exec i).trans hexec)).mono fun x hx => ?_
      have hstored := h.seen i x hx
      rwa [Postgres.owner_of_not ((h.inTx i).trans htx)] at hstored

/-- A game that is being started next to a room that is created: its transaction is still
open. -/
theorem works_whole_startGame :
    let tables : RestTables :=
      { order := { rows := fun xs => xs, perm := fun _ => .refl _ }, createdAt := fun _ => default }
    let s : Postgres := { clock := fun _ => default }
    let execs : List RestExecution := [.game (.startGame "1f2e3d4c" "ABC" .solo none),
      .createRoom "5a6b7c8d" .oneVOne]
    let pg := ((List.replicate 6 0 ++ [1, 1, 1, 1]).foldl (RestPool.step tables 2)
      (RestPool.start s execs)).state.server.pg
    ∃ history : List (ℕ × Work),
      Content.Same pg.content ((history.map Prod.snd).foldl Content.apply s.content) ∧
      (worksOf 0 history = [] ∨ ∃ st rows, worksOf 0 history = [.insert rows] ∧
        Started.Whole (·.Stored pg none) "1f2e3d4c" "ABC" .solo none st rows) ∧
      (worksOf 1 history = [] ∨ ∃ room : RoomRow, worksOf 1 history = [room.work] ∧
        room.IsNew "5a6b7c8d" .oneVOne) := by
  intro tables s execs pg
  obtain ⟨history, hcontent, -, hwrote⟩ := @works_whole tables 2 s
    (Postgres.idle_empty _) execs (List.replicate 6 0 ++ [1, 1, 1, 1])
  have hstarting := hwrote 0 (.game (.startGame "1f2e3d4c" "ABC" .solo none)) rfl
  have hcreating := hwrote 1 (.createRoom "5a6b7c8d" .oneVOne) rfl
  exact ⟨history, hcontent, hstarting, hcreating⟩

/-- Whatever the executions and their interleaving: what is stored for everyone is what a
history of works has made of the database, and each execution that has been answered
has written in it what its answer says. -/
theorem works_answered (hidle : ∀ c, s.Idle c) (execs : List RestExecution)
    (schedule : List ℕ) :
    let v := (schedule.foldl (RestPool.step tables size) (RestPool.start s execs)).state
    ∃ history : List (ℕ × Work),
      Content.Same v.server.pg.content ((history.map Prod.snd).foldl Content.apply s.content) ∧
      ∀ (i : ℕ) (exec : RestExecution) (a : Answer), execs[i]? = some exec → v.Answers i a →
        exec.Accounts (·.Stored v.server.pg none) (worksOf i history) a := by
  intro v
  obtain ⟨-, -, phase, -, history, h⟩ := recorded_run tables size hidle execs schedule
  refine ⟨history, h.content, fun i exec a hexec ha => ?_⟩
  obtain ⟨htx, haccounts⟩ := h.accounts i a (h.answers i a ha)
  rw [h.works]
  refine (haccounts exec ((h.exec i).trans hexec)).mono fun x hx => ?_
  have hstored := h.seen i x hx
  rwa [Postgres.owner_of_not ((h.inTx i).trans htx)] at hstored

/-- A game is started, then points are added to it. -/
theorem works_answered_pointsAdded :
    let tables : RestTables :=
      { order := { rows := fun xs => xs, perm := fun _ => .refl _ }, createdAt := fun _ => default }
    let s : Postgres := { clock := fun _ => default }
    let execs : List RestExecution := [.game (.startGame "1f2e3d4c" "ABC" .solo none),
      .game (.addGameEvent 1 .bumperHit 10)]
    let hit : GameEventRow :=
      { id := 2, gameId := 1, type := .bumperHit, points := 10, occuredAt := default }
    let pg := ((List.replicate 10 0 ++ List.replicate 10 1).foldl (RestPool.step tables 1)
      (RestPool.start s execs)).state.server.pg
    ∃ history : List (ℕ × Work),
      Content.Same pg.content ((history.map Prod.snd).foldl Content.apply s.content) ∧
      worksOf 1 history = [hit.work, .addPoints 1 10] := by
  intro tables s execs hit pg
  let game : GameRow :=
    { id := 1, playerId := 1, roomId := some 1, mode := .solo, score := 10, status := .playing,
      startedAt := default, finishedAt := none }
  have hadded : (1, Response.added (.ok (game, hit))) ∈
      ((List.replicate 10 0 ++ List.replicate 10 1).foldl (RestPool.step tables 1)
        (RestPool.start s execs)).state.server.responses := by
    decide +kernel
  obtain ⟨history, hcontent, haccounts⟩ := @works_answered tables 1 s
    (Postgres.idle_empty _) execs (List.replicate 10 0 ++ List.replicate 10 1)
  obtain ⟨-, hworks⟩ := haccounts 1 (.game (.addGameEvent 1 .bumperHit 10))
    (.response (.added (.ok (game, hit)))) rfl hadded
  rw [if_pos (by decide)] at hworks
  exact ⟨history, hcontent, hworks⟩

end Runs

end FlipperBack
