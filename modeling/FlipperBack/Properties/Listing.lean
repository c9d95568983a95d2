import FlipperBack.Properties.Told
import FlipperBack.Query.Sweep

/-!
# Listings miss nothing

A listing without a status asks for the rows of one status after those of another,
each with a query of its own, while games are started and finished in between. It
misses no game and no room that is there when it begins (`listings_complete`): a
game is listed twice where it is finished between the queries, but it is never lost,
because `playing` is asked for before `finished`.
-/

namespace FlipperBack

open Effects Python Query

/-! ## How rows change -/

def gameChanges : Changes GameRow GameStatus where
  key := GameRow.id
  status := GameRow.status
  later := GameRow.Later
  becomes a b := a = b ∨ b = .finished
  later_refl := .refl
  later_trans _ _ _ := .trans
  becomes_of_later g g' h := by
    cases hstatus : g.status with
    | finished => exact Or.inr (h.status hstatus)
    | playing =>
        cases hstatus' : g'.status with
        | playing => exact Or.inl rfl
        | finished => exact Or.inr rfl

def roomChanges : Changes RoomRow RoomStatus where
  key := RoomRow.id
  status := RoomRow.status
  later := Eq
  becomes := Eq
  later_refl _ := rfl
  later_trans _ _ _ := .trans
  becomes_of_later _ _ := congrArg RoomRow.status

/-! ## The executions that list everything -/

/-- An execution that lists everything has still to ask for some statuses, and has listed
some rows. -/
inductive ListPhase
  | other
  | games (remaining : List GameStatus) (listed : List GameRow)
  | rooms (remaining : List RoomStatus) (listed : List RoomRow)

/-- What an execution lists. -/
inductive Listing
  | nothing
  | games
  | rooms
  deriving DecidableEq

namespace ListPhase

def listing : ListPhase → Listing
  | other => .nothing
  | games _ _ => .games
  | rooms _ _ => .rooms

def Allows : ListPhase → RestOp → Prop
  | other, .pg call => call.Gains
  | other, _ => True
  | games (status :: _) _, op => op = .selectGames status
  | games [] listed, op => op = .view (.games (.ok listed))
  | rooms (status :: _) _, op => op = .selectRooms status
  | rooms [] listed, op => op = .view (.rooms (.ok listed))

def after : ListPhase → (op : RestOp) → Except Exc op.Res → ListPhase
  | games (_ :: remaining) listed, .selectGames _, .ok rows => games remaining (listed ++ rows)
  | rooms (_ :: remaining) listed, .selectRooms _, .ok rows => rooms remaining (listed ++ rows)
  | q, _, _ => q

end ListPhase

/-- A query of the rows of a status does not fail. -/
def RestOp.Lists : (op : RestOp) → Except Exc op.Res → Prop
  | selectGames _, r => ∃ rows, r = .ok rows
  | selectRooms _, r => ∃ rows, r = .ok rows
  | _, _ => True

def listing : Protocol Exc RestOp.Res ListPhase where
  allowed := ListPhase.Allows
  answers op r := restSeeing.answers op r ∧ op.Lists r
  next q op r q' := q' = q.after op r

/-- The phase of an execution before it has made any call. -/
def RestExecution.listPhase : RestExecution → ListPhase
  | read (.listGames status) => if status.getD "" = "" then .games GameStatus.all [] else .other
  | read (.listRooms status) => if status.getD "" = "" then .rooms RoomStatus.all [] else .other
  | _ => .other

/-! ## The programs -/

theorem listing_other (exec : RestExecution) : Prog.Rests listing .other exec.prog := by
  refine (seeing_prog exec).rests (R := listing) (c := .other)
    (fun q op hallowed => ⟨?_, fun r _ => rfl⟩) fun op r hr => hr.1
  cases op with
  | pg call =>
      cases call with
      | addPoints gameId points => exact hallowed
      | _ => trivial
  | _ => trivial

theorem listing_games (statuses : List GameStatus) (listed : List GameRow) :
    (gamesOfEach statuses).Yields listing (fun q games => q = .games [] (listed ++ games))
      (fun _ _ => False) (.games statuses listed) := by
  induction statuses generalizing listed with
  | nil => exact congrArg _ (List.append_nil listed).symm
  | cons status statuses ih =>
      refine Prog.Yields.bind (Q := fun q games => q = .games statuses (listed ++ games)) ?_ ?_
      · refine Prog.Yields.perform rfl (fun games _ => ⟨_, rfl, rfl⟩) fun e he => ?_
        obtain ⟨rows, hrows⟩ := he.2
        cases hrows
      · rintro _ games rfl
        refine (ih (listed ++ games)).bind fun q others hq => ?_
        exact hq.trans (congrArg _ (List.append_assoc listed games others))

theorem listing_rooms (statuses : List RoomStatus) (listed : List RoomRow) :
    (roomsOfEach statuses).Yields listing (fun q rooms => q = .rooms [] (listed ++ rooms))
      (fun _ _ => False) (.rooms statuses listed) := by
  induction statuses generalizing listed with
  | nil => exact congrArg _ (List.append_nil listed).symm
  | cons status statuses ih =>
      refine Prog.Yields.bind (Q := fun q rooms => q = .rooms statuses (listed ++ rooms)) ?_ ?_
      · refine Prog.Yields.perform rfl (fun rooms _ => ⟨_, rfl, rfl⟩) fun e he => ?_
        obtain ⟨rows, hrows⟩ := he.2
        cases hrows
      · rintro _ rooms rfl
        refine (ih (listed ++ rooms)).bind fun q others hq => ?_
        exact hq.trans (congrArg _ (List.append_assoc listed rooms others))

/-- What a listing that does not fail has listed is returned. -/
theorem listing_viewing {α : Type} {view : Except Exc α → View} {p : RestProg α} {q : ListPhase}
    {Q : ListPhase → α → Prop} (hp : p.Yields listing Q (fun _ _ => False) q)
    (hview : ∀ q a, Q q a → q.Allows (.view (view (.ok a)))) :
    (viewing view p).Follows listing (fun _ => True) (fun _ => True) q := by
  have hviewing : (viewing view p).Yields listing (fun _ _ => True) (fun _ _ => True) q := by
    refine hp.attempt_bind (fun q a hq => ?_) fun _ _ h => h.elim
    exact Prog.Yields.perform (hview q a hq) (fun _ _ => ⟨_, rfl, trivial⟩)
      fun _ _ => ⟨_, rfl, trivial⟩
  exact hviewing.follows (fun _ _ _ => trivial) fun _ _ _ => trivial

theorem listing_prog (exec : RestExecution) :
    exec.prog.Follows listing (fun _ => True) (fun _ => True) exec.listPhase := by
  have hother : exec.prog.Follows listing (fun _ => True) (fun _ => True) .other :=
    (listing_other exec).follows trivial trivial
  cases exec with
  | read exec =>
      cases exec with
      | listGames status =>
          rw [RestExecution.listPhase]
          split
          · next hstatus =>
              have hexec : ListGames.execute status = gamesOfEach GameStatus.all := if_pos hstatus
              refine listing_viewing (hexec ▸ listing_games GameStatus.all []) ?_
              rintro _ games rfl
              rfl
          · exact hother
      | listRooms status =>
          rw [RestExecution.listPhase]
          split
          · next hstatus =>
              have hexec : ListRooms.execute status = roomsOfEach RoomStatus.all := if_pos hstatus
              refine listing_viewing (hexec ▸ listing_rooms RoomStatus.all []) ?_
              rintro _ rooms rfl
              rfl
          · exact hother
      | _ => exact hother
  | _ => exact hother

/-! ## What the phases say of the server -/

/-- The listings of those who are fresh cover the rows `games₀` and `rooms₀`. -/
structure Listed (games₀ : List GameRow) (rooms₀ : List RoomRow) (fresh : ℕ → Prop)
    (listings : ℕ → Listing) (v : Rest) (phase : ℕ → ListPhase) : Prop where
  listing : ∀ j, (phase j).listing = listings j
  games : ∀ j remaining listed, fresh j → phase j = .games remaining listed →
    Swept gameChanges games₀ v.server.pg.games.committed remaining listed
  rooms : ∀ j remaining listed, fresh j → phase j = .rooms remaining listed →
    Swept roomChanges rooms₀ v.server.pg.rooms.committed remaining listed
  viewedGames : ∀ j, fresh j → listings j = .games → ∀ view, (j, view) ∈ v.views →
    ∃ listed, view = .games (.ok listed) ∧
      Swept gameChanges games₀ v.server.pg.games.committed [] listed
  viewedRooms : ∀ j, fresh j → listings j = .rooms → ∀ view, (j, view) ∈ v.views →
    ∃ listed, view = .rooms (.ok listed) ∧
      Swept roomChanges rooms₀ v.server.pg.rooms.committed [] listed

theorem mem_gamesOf {tables : RestTables} {s : Postgres} {status : GameStatus} {g : GameRow} :
    g ∈ s.gamesOf tables status ↔ g ∈ s.games.committed ∧ g.status = status := by
  rw [Postgres.gamesOf, List.mem_mergeSort, (tables.order.perm _).mem_iff, List.mem_filter,
    decide_eq_true_iff]

theorem mem_roomsOf {tables : RestTables} {s : Postgres} {status : RoomStatus} {r : RoomRow} :
    r ∈ s.roomsOf tables status ↔ r ∈ s.rooms.committed ∧ r.status = status := by
  rw [Postgres.roomsOf, List.mem_mergeSort, (tables.order.perm _).mem_iff, List.mem_filter,
    decide_eq_true_iff]

theorem nodup_gamesOf (tables : RestTables) (s : Postgres) (status : GameStatus) :
    ((s.gamesOf tables status).map GameRow.id).Nodup := by
  have hperm : (s.gamesOf tables status).Perm
      (s.games.committed.filter fun g => g.status = status) :=
    (List.mergeSort_perm _ _).trans (tables.order.perm _)
  refine ((hperm.map GameRow.id).nodup_iff).mpr ?_
  exact (s.games.nodup_committed s.games.nodup).sublist (List.filter_sublist.map _)

theorem nodup_roomsOf (tables : RestTables) (s : Postgres) (status : RoomStatus) :
    ((s.roomsOf tables status).map RoomRow.id).Nodup := by
  have hperm : (s.roomsOf tables status).Perm
      (s.rooms.committed.filter fun r => r.status = status) :=
    (List.mergeSort_perm _ _).trans (tables.order.perm _)
  refine ((hperm.map RoomRow.id).nodup_iff).mpr ?_
  exact (s.rooms.nodup_committed s.rooms.nodup).sublist (List.filter_sublist.map _)

section Steps

variable {games₀ : List GameRow} {rooms₀ : List RoomRow} {fresh : ℕ → Prop}
  {listings : ℕ → Listing} {v v' : Rest} {phase : ℕ → ListPhase} {i : ℕ}

/-- The rows change, and the executions stay in their phases. -/
theorem Listed.move (h : Listed games₀ rooms₀ fresh listings v phase)
    (hgrows : v.server.pg.Grows none none v'.server.pg) (hviews : v'.views = v.views) :
    Listed games₀ rooms₀ fresh listings v' phase := by
  have hgames : ∀ g ∈ v.server.pg.games.committed, ∃ g' ∈ v'.server.pg.games.committed,
      g.Later g' := by
    simpa only [TxTable.visible_none] using hgrows.games
  have hrooms : ∀ r ∈ v.server.pg.rooms.committed, ∃ r' ∈ v'.server.pg.rooms.committed,
      r = r' := by
    intro r hr
    rw [← TxTable.visible_none] at hr ⊢
    exact ⟨r, hgrows.rooms r hr, rfl⟩
  refine ⟨h.listing, fun j remaining listed hj hphase => (h.games j remaining listed hj hphase).move
    hgames, fun j remaining listed hj hphase => (h.rooms j remaining listed hj hphase).move hrooms,
    fun j hj hlisting view hview => ?_, fun j hj hlisting view hview => ?_⟩
  · obtain ⟨listed, heq, hswept⟩ := h.viewedGames j hj hlisting view (hviews ▸ hview)
    exact ⟨listed, heq, hswept.move hgames⟩
  · obtain ⟨listed, heq, hswept⟩ := h.viewedRooms j hj hlisting view (hviews ▸ hview)
    exact ⟨listed, heq, hswept.move hrooms⟩

/-- An execution that stays in its phase. -/
theorem Listed.stay (h : Listed games₀ rooms₀ fresh listings v phase) {q : ListPhase}
    (hq : q = phase i) : Listed games₀ rooms₀ fresh listings v (Function.update phase i q) := by
  rw [hq, Function.update_eq_self]
  exact h

/-- An execution returns what it has listed. -/
theorem Listed.view (h : Listed games₀ rooms₀ fresh listings v phase) {view : View}
    (hallowed : (phase i).Allows (.view view)) :
    Listed games₀ rooms₀ fresh listings { v with views := v.views ++ [(i, view)] } phase := by
  refine ⟨h.listing, h.games, h.rooms, fun j hj hlisting view' hview => ?_,
    fun j hj hlisting view' hview => ?_⟩
  · rcases List.mem_append.mp hview with hview | hview
    · exact h.viewedGames j hj hlisting view' hview
    · obtain ⟨rfl, rfl⟩ := Prod.mk.inj (List.mem_singleton.mp hview)
      rw [← h.listing] at hlisting
      cases hphase : phase j with
      | games remaining listed =>
          rw [hphase] at hallowed
          cases remaining with
          | nil => exact ⟨listed, RestOp.view.inj hallowed, h.games j [] listed hj hphase⟩
          | cons status remaining => cases hallowed
      | other => rw [hphase] at hlisting; cases hlisting
      | rooms remaining listed => rw [hphase] at hlisting; cases hlisting
  · rcases List.mem_append.mp hview with hview | hview
    · exact h.viewedRooms j hj hlisting view' hview
    · obtain ⟨rfl, rfl⟩ := Prod.mk.inj (List.mem_singleton.mp hview)
      rw [← h.listing] at hlisting
      cases hphase : phase j with
      | rooms remaining listed =>
          rw [hphase] at hallowed
          cases remaining with
          | nil => exact ⟨listed, RestOp.view.inj hallowed, h.rooms j [] listed hj hphase⟩
          | cons status remaining => cases hallowed
      | other => rw [hphase] at hlisting; cases hlisting
      | games remaining listed => rw [hphase] at hlisting; cases hlisting

/-- An execution that lists the games asks for the next status. -/
theorem Listed.askGames {tables : RestTables} (h : Listed games₀ rooms₀ fresh listings v phase)
    {status : GameStatus} {remaining : List GameStatus} {listed : List GameRow}
    (hphase : phase i = .games (status :: remaining) listed) :
    Listed games₀ rooms₀ fresh listings v
      (Function.update phase i (.games remaining (listed ++ v.server.pg.gamesOf tables status))) := by
  refine ⟨fun j => ?_, fun j remaining' listed' hj hphase' => ?_,
    fun j remaining' listed' hj hphase' => ?_, h.viewedGames, h.viewedRooms⟩
  · by_cases hij : j = i
    · subst hij
      rw [Function.update_self, ← h.listing, hphase]
      rfl
    · rw [Function.update_of_ne hij, h.listing]
  · by_cases hij : j = i
    · subst hij
      rw [Function.update_self] at hphase'
      obtain ⟨rfl, rfl⟩ := ListPhase.games.inj hphase'
      exact (h.games j _ _ hj hphase).ask (fun g => mem_gamesOf) (nodup_gamesOf tables _ _)
    · rw [Function.update_of_ne hij] at hphase'
      exact h.games j _ _ hj hphase'
  · by_cases hij : j = i
    · subst hij
      rw [Function.update_self] at hphase'
      cases hphase'
    · rw [Function.update_of_ne hij] at hphase'
      exact h.rooms j _ _ hj hphase'

theorem Listed.askRooms {tables : RestTables} (h : Listed games₀ rooms₀ fresh listings v phase)
    {status : RoomStatus} {remaining : List RoomStatus} {listed : List RoomRow}
    (hphase : phase i = .rooms (status :: remaining) listed) :
    Listed games₀ rooms₀ fresh listings v
      (Function.update phase i (.rooms remaining (listed ++ v.server.pg.roomsOf tables status))) := by
  refine ⟨fun j => ?_, fun j remaining' listed' hj hphase' => ?_,
    fun j remaining' listed' hj hphase' => ?_, h.viewedGames, h.viewedRooms⟩
  · by_cases hij : j = i
    · subst hij
      rw [Function.update_self, ← h.listing, hphase]
      rfl
    · rw [Function.update_of_ne hij, h.listing]
  · by_cases hij : j = i
    · subst hij
      rw [Function.update_self] at hphase'
      cases hphase'
    · rw [Function.update_of_ne hij] at hphase'
      exact h.games j _ _ hj hphase'
  · by_cases hij : j = i
    · subst hij
      rw [Function.update_self] at hphase'
      obtain ⟨rfl, rfl⟩ := ListPhase.rooms.inj hphase'
      exact (h.rooms j _ _ hj hphase).ask (fun r => mem_roomsOf) (nodup_roomsOf tables _ _)
    · rw [Function.update_of_ne hij] at hphase'
      exact h.rooms j _ _ hj hphase'

theorem listed_serveRest {tables : RestTables} (h : Listed games₀ rooms₀ fresh listings v phase)
    {op : RestOp} (hallowed : (phase i).Allows op) :
    Listed games₀ rooms₀ fresh listings (serveRest tables i op v).2
      (Function.update phase i ((phase i).after op (serveRest tables i op v).1)) := by
  cases hphase : phase i with
  | other =>
      rw [hphase] at hallowed
      cases op with
      | pg call =>
          have hmoved : Listed games₀ rooms₀ fresh listings (serveRest tables i (.pg call) v).2
              phase :=
            h.move (serve_grows i hallowed v.server (Or.inl (Option.some_ne_none i).symm)) rfl
          exact hmoved.stay hphase.symm
      | view view => exact Listed.stay (h.view (by rw [hphase]; trivial)) hphase.symm
      | _ => exact h.stay hphase.symm
  | games remaining listed =>
      rw [hphase] at hallowed
      cases remaining with
      | nil =>
          obtain rfl : op = .view (.games (.ok listed)) := hallowed
          exact (h.view (by rw [hphase]; rfl)).stay hphase.symm
      | cons status remaining =>
          obtain rfl : op = .selectGames status := hallowed
          exact h.askGames hphase
  | rooms remaining listed =>
      rw [hphase] at hallowed
      cases remaining with
      | nil =>
          obtain rfl : op = .view (.rooms (.ok listed)) := hallowed
          exact (h.view (by rw [hphase]; rfl)).stay hphase.symm
      | cons status remaining =>
          obtain rfl : op = .selectRooms status := hallowed
          exact h.askRooms hphase

end Steps

theorem views_serveRest {tables : RestTables} {i j : ℕ} {op : RestOp} {v : Rest} {view : View}
    (hview : (j, view) ∈ (serveRest tables i op v).2.views) : (j, view) ∈ v.views ∨ j = i := by
  cases op with
  | view view' =>
      exact (List.mem_append.mp hview).imp_right fun hview =>
        (Prod.mk.inj (List.mem_singleton.mp hview)).1
  | _ => exact Or.inl hview

theorem listed_servePool {tables : RestTables} {games₀ : List GameRow} {rooms₀ : List RoomRow}
    {fresh : ℕ → Prop} {listings : ℕ → Listing} {v : Rest} {phase : ℕ → ListPhase} {i : ℕ}
    {q : ListPhase} (h : Listed games₀ rooms₀ fresh listings v phase) {op : Acquiring RestOp}
    (hallowed : listing.acquiring.allowed (phase i) op)
    (hnext : listing.acquiring.next (phase i) op (servePool tables i op v).1 q) :
    Listed games₀ rooms₀ fresh listings (servePool tables i op v).2 (Function.update phase i q) :=
  acquiring_call (I := Listed games₀ rooms₀ fresh listings) (fun op hallowed hnext => by
    obtain rfl : q = (phase i).after op (serveRest tables i op v).1 := hnext
    exact listed_serveRest h hallowed) { h with } { h with } hallowed hnext

theorem views_servePool {tables : RestTables} {i j : ℕ} {op : Acquiring RestOp} {v : Rest}
    {view : View} (hview : (j, view) ∈ (servePool tables i op v).2.views) :
    (j, view) ∈ v.views ∨ j = i := by
  cases op with
  | call op => exact views_serveRest hview
  | _ => exact Or.inl hview

theorem serveRest_lists (tables : RestTables) (c : ℕ) (op : RestOp) (v : Rest) :
    listing.answers op (serveRest tables c op v).1 := by
  refine ⟨serveRest_reports tables c op v, ?_⟩
  cases op with
  | selectGames status => exact ⟨_, rfl⟩
  | selectRooms status => exact ⟨_, rfl⟩
  | _ => trivial

/-! ## Every interleaving -/

section Runs

variable {tables : RestTables} {size : ℕ} {s : Postgres}

/-- The phase of the execution `i` before it has made any call. -/
def RestExecution.listPhases (execs : List RestExecution) (i : ℕ) : ListPhase :=
  (execs[i]?.map RestExecution.listPhase).getD .other

variable (tables size s) in
theorem listed_run (execs : List RestExecution) (before : List ℕ) :
    (before.foldl (RestPool.step tables size) (RestPool.start s execs)).Keeps
      listing.acquiring (fun _ => True) (fun i => i) execs.length fun v phase =>
        (Listed [] [] (fun _ => False) (fun j => (RestExecution.listPhases execs j).listing) v phase ∧
          ∀ j view, (j, view) ∈ v.views → j ∈ before) ∧
        ∀ j, j ∉ before → phase j = RestExecution.listPhases execs j := by
  refine Pool.run_keeps_fresh (acquiring_answers (serveRest_lists tables))
    (fun i op q phase v _ hi h hallowed _ hnext => ?_) ?_
  · refine ⟨listed_servePool h.1 hallowed hnext, fun j view hview => ?_⟩
    rcases views_servePool hview with hview | rfl
    · exact h.2 j view hview
    · exact hi
  · refine RestPool.keeps_start s execs (RestExecution.listPhases execs) (fun i exec hexec => ?_)
      ⟨⟨?_, fun j view hview => by cases hview⟩, rfl⟩
    · rw [RestExecution.listPhases, hexec]
      exact (listing_prog exec).acquiring false
    · exact ⟨fun _ => rfl, fun _ _ _ h => h.elim, fun _ _ _ h => h.elim, fun _ h => h.elim,
        fun _ h => h.elim⟩

variable {execs : List RestExecution} {before after : List ℕ} {j : ℕ}

theorem listPhases_games {remaining : List GameStatus} {listed : List GameRow}
    (h : RestExecution.listPhases execs j = .games remaining listed) :
    remaining = GameStatus.all ∧ listed = [] := by
  unfold RestExecution.listPhases at h
  cases hexec : execs[j]? with
  | none => rw [hexec] at h; cases h
  | some exec =>
      rw [hexec] at h
      simp only [Option.map_some, Option.getD_some, RestExecution.listPhase] at h
      split at h
      · split at h <;> cases h
        exact ⟨rfl, rfl⟩
      · split at h <;> cases h
      · cases h

theorem listPhases_rooms {remaining : List RoomStatus} {listed : List RoomRow}
    (h : RestExecution.listPhases execs j = .rooms remaining listed) :
    remaining = RoomStatus.all ∧ listed = [] := by
  unfold RestExecution.listPhases at h
  cases hexec : execs[j]? with
  | none => rw [hexec] at h; cases h
  | some exec =>
      rw [hexec] at h
      simp only [Option.map_some, Option.getD_some, RestExecution.listPhase] at h
      split at h
      · split at h <;> cases h
      · split at h <;> cases h
        exact ⟨rfl, rfl⟩
      · cases h

variable (tables size s) in
/-- What is there when it begins is covered by a listing. -/
theorem covers_run (execs : List RestExecution) (before after : List ℕ) :
    ((before ++ after).foldl (RestPool.step tables size) (RestPool.start s execs)).Keeps
      listing.acquiring (fun _ => True) (fun i => i) execs.length
      (Listed (before.foldl (RestPool.step tables size)
          (RestPool.start s execs)).state.server.pg.games.committed
        (before.foldl (RestPool.step tables size)
          (RestPool.start s execs)).state.server.pg.rooms.committed (· ∉ before)
        fun j => (RestExecution.listPhases execs j).listing) := by
  rw [List.foldl_append]
  refine Pool.run_keeps (C := fun _ _ _ => True) (acquiring_answers (serveRest_lists tables))
    (fun i op q phase v _ h hallowed _ _ hnext => listed_servePool h hallowed hnext) ?_
    (Runs.along_of_forall (fun _ _ _ _ => trivial) _ _)
  obtain ⟨hlength, hlabel, phase, hfollow, ⟨hlisted, hviews⟩, hfresh⟩ :=
    listed_run tables size s execs before
  refine ⟨hlength, hlabel, phase, hfollow, hlisted.listing,
    fun j remaining listed hj hphase => ?_, fun j remaining listed hj hphase => ?_,
    fun j hj _ view hview => absurd (hviews j view hview) hj,
    fun j hj _ view hview => absurd (hviews j view hview) hj⟩
  · obtain ⟨rfl, rfl⟩ := listPhases_games ((hfresh j hj).symm.trans hphase)
    refine .start (fun g hg => ⟨g, hg, .refl g⟩) (fun status => ?_) ?_
    · cases status <;> simp [GameStatus.all]
    · simp [GameStatus.all, gameChanges]
  · obtain ⟨rfl, rfl⟩ := listPhases_rooms ((hfresh j hj).symm.trans hphase)
    refine .start (fun r hr => ⟨r, hr, rfl⟩) (fun status => ?_) ?_
    · cases status <;> simp [RoomStatus.all]
    · simp [RoomStatus.all, roomChanges]

/-- Whatever the executions and their interleaving: a listing of all the games shows each
that is there when it begins, as it is or later, and none twice with one status; and a
listing of all the rooms shows each that is there when it begins, and none twice. -/
theorem listings_complete (hj : j ∉ before) {view : View}
    (hview : (j, view) ∈ ((before ++ after).foldl (RestPool.step tables size)
      (RestPool.start s execs)).state.views) {status : Option String}
    (hstatus : status.getD "" = "") :
    let pg := (before.foldl (RestPool.step tables size) (RestPool.start s execs)).state.server.pg
    (execs[j]? = some (.read (.listGames status)) → ∃ games, view = .games (.ok games) ∧
      (∀ g ∈ pg.games.committed, ∃ g' ∈ games, g.Later g') ∧
        (games.map fun g => (g.id, g.status)).Nodup) ∧
      (execs[j]? = some (.read (.listRooms status)) → ∃ rooms, view = .rooms (.ok rooms) ∧
        (∀ r ∈ pg.rooms.committed, r ∈ rooms) ∧ (rooms.map RoomRow.id).Nodup) := by
  intro pg
  obtain ⟨-, -, phase, -, hlisted⟩ :=
    covers_run tables size s execs before after
  refine ⟨fun hexec => ?_, fun hexec => ?_⟩
  · have hlisting : (RestExecution.listPhases execs j).listing = .games := by
      simp [RestExecution.listPhases, hexec, RestExecution.listPhase, hstatus, ListPhase.listing]
    obtain ⟨games, rfl, hswept⟩ := hlisted.viewedGames j hj hlisting view hview
    exact ⟨games, rfl, hswept.covered, hswept.nodup⟩
  · have hlisting : (RestExecution.listPhases execs j).listing = .rooms := by
      simp [RestExecution.listPhases, hexec, RestExecution.listPhase, hstatus, ListPhase.listing]
    obtain ⟨rooms, rfl, hswept⟩ := hlisted.viewedRooms j hj hlisting view hview
    refine ⟨rooms, rfl, fun r hr => ?_, ?_⟩
    · obtain ⟨r', hr', rfl⟩ := hswept.covered r hr
      exact hr'
    · refine List.Nodup.map_on (fun r hr r' hr' hid => ?_) hswept.nodup.of_map
      obtain ⟨r₁, hr₁, rfl⟩ := hswept.stays r hr
      obtain ⟨r₂, hr₂, rfl⟩ := hswept.stays r' hr'
      exact (Prod.mk.inj (TxTable.eq_of_key (TxTable.mem_committed.mp hr₁)
        (TxTable.mem_committed.mp hr₂) hid)).2

/-- A game is finished between the two queries of a listing. -/
theorem listings_complete_finished :
    let tables : RestTables :=
      { order := { rows := fun xs => xs, perm := fun _ => .refl _ }, createdAt := fun _ => default }
    let execs : List RestExecution := [.game (.startGame "1f2e3d4c" "ABC" .solo none),
      .game (.finishGame 1), .read (.listGames none)]
    let game : GameRow :=
      { id := 1, playerId := 1, roomId := some 1, mode := .solo, score := 0, status := .playing,
        startedAt := default, finishedAt := none }
    let views := ((List.replicate 10 0 ++ ([2, 2, 2] ++ List.replicate 10 1 ++ [2, 2, 2, 2])).foldl
      (RestPool.step tables 2) (RestPool.start { clock := fun _ => default } execs)).state.views
    ∃ games, (2, .games (.ok games)) ∈ views ∧ (∃ g ∈ games, game.Later g) ∧
      (games.map fun g => (g.id, g.status)).Nodup := by
  intro tables execs game views
  have hstarted : game ∈ ((List.replicate 10 0).foldl (RestPool.step tables 2)
      (RestPool.start { clock := fun _ => default } execs)).state.server.pg.games.committed := by
    decide +kernel
  obtain ⟨⟨_, view⟩, hview, rfl⟩ : ∃ v ∈ views, v.1 = 2 := by
    decide +kernel
  have hexec : execs[2]? = some (.read (.listGames none)) := rfl
  obtain ⟨games, rfl, hcovered, hnodup⟩ := (listings_complete (by decide) hview rfl).1 hexec
  exact ⟨games, hview, hcovered game hstarted, hnodup⟩

end Runs

end FlipperBack
