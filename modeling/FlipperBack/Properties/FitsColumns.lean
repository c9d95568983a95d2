import FlipperBack.Properties.FlushContent

/-!
# The values of a session fit their columns

The score of a session and the points of its events are unbounded in Redis and
signed 32-bit integers in the database, and nothing between the two bounds them.
A session whose values do not fit is not flushed by any request, whether the
database is healthy or not, so the values fit in every state of a run exactly
where the points of each accepted event fit, and so does each sum of the points
accepted for a session since its last relayed score (`values_fit_iff`).
-/

namespace FlipperBack

open Effects Python

/-- What is kept of a session can be inserted: its score fits its column, and so
do the points of the rows of its events. -/
def FitsColumns (score : PyInt) (events : List Dict) : Prop :=
  fitsInteger score.val ∧ ∀ utcnow, ∃ rows, buildEventRows utcnow events = .ok rows ∧
    ∀ row ∈ rows, fitsInteger row.points

/-- The values of the session `id` fit, if it is stored. -/
def World.FitsAt (w : World) (id : String) : Prop :=
  ∀ s, w.sessions id = some s → FlipperBack.FitsColumns s.score (w.buffers id)

/-- The values of every stored session fit. -/
def World.FitsColumns (w : World) : Prop := ∀ id, w.FitsAt id

/-- Every session that can be read is flushed, where no statement fails. -/
def World.Flushes (w : World) : Prop :=
  ∀ pg clock id, (∀ x ∈ pg, x = none) → (w.seen id).isSome →
    ∃ res w', (finishAndPersist clock id).run (handle { pg }) w = (.ok res, w')

/-! ## Rows that fit -/

/-- Whether a buffered event gives no row, or one whose points fit. -/
def rowFits (ev : Dict) : Bool :=
  match buildEventRow default ev with
  | .ok row => row.all fun row => fitsInteger row.points
  | .error _ => false

/-- The points of a row do not depend on the date it is built at. -/
theorem points_buildEventRow (utcnow utcnow' : DateTime) (ev : Dict) :
    (buildEventRow utcnow ev).map (Option.map EventRow.points) =
      (buildEventRow utcnow' ev).map (Option.map EventRow.points) := by
  unfold buildEventRow
  split
  · split
    · rfl
    · cases eventPayload ev with
      | error e => rfl
      | ok payload =>
          dsimp only [bind, Except.bind]
          cases tolerantPoints payload <;> rfl
  · rfl

theorem rowFits_iff (utcnow : DateTime) (ev : Dict) :
    rowFits ev ↔ ∃ row, buildEventRow utcnow ev = .ok row ∧ ∀ r ∈ row, fitsInteger r.points := by
  have hpoints := points_buildEventRow default utcnow ev
  unfold rowFits
  cases hdefault : buildEventRow default ev with
  | error e =>
      rw [hdefault] at hpoints
      cases hrow : buildEventRow utcnow ev with
      | error e' => simp
      | ok row =>
          rw [hrow] at hpoints
          cases hpoints
  | ok row =>
      rw [hdefault] at hpoints
      cases hrow : buildEventRow utcnow ev with
      | error e' =>
          rw [hrow] at hpoints
          cases hpoints
      | ok row' =>
          rw [hrow] at hpoints
          have hpoints : row.map EventRow.points = row'.map EventRow.points := Except.ok.inj hpoints
          have hall : (row.all fun r => fitsInteger r.points) =
              row'.all fun r => fitsInteger r.points := by
            rw [← Option.all_map (f := EventRow.points), ← Option.all_map (f := EventRow.points)]
            exact congrArg (Option.all fitsInteger) hpoints
          dsimp only
          rw [hall]
          simp [Option.all_eq_true]

theorem rows_fit_iff (utcnow : DateTime) (evs : List Dict) :
    (∃ rows, buildEventRows utcnow evs = .ok rows ∧ ∀ row ∈ rows, fitsInteger row.points) ↔
      ∀ ev ∈ evs, rowFits ev := by
  induction evs with
  | nil => exact ⟨fun _ => by simp, fun _ => ⟨[], rfl, by simp⟩⟩
  | cons ev evs ih =>
      rw [List.forall_mem_cons, ← ih, rowFits_iff utcnow]
      constructor
      · rintro ⟨rows, h, hfits⟩
        obtain ⟨row, hrow, h⟩ := bind_eq_ok.mp h
        obtain ⟨rows', hrows', h⟩ := bind_eq_ok.mp h
        obtain rfl := Except.ok.inj h
        refine ⟨⟨row, hrow, fun r hr => hfits r ?_⟩, rows', hrows', fun r hr => hfits r ?_⟩
        · exact List.mem_append_left _ (Option.mem_toList.mpr hr)
        · exact List.mem_append_right _ hr
      · rintro ⟨⟨row, hrow, hfit⟩, rows, hrows, hfits⟩
        refine ⟨row.toList ++ rows, ?_, fun r hr => ?_⟩
        · exact bind_eq_ok.mpr ⟨row, hrow, bind_eq_ok.mpr ⟨rows, hrows, rfl⟩⟩
        · rcases List.mem_append.mp hr with hr | hr
          · exact hfit r (Option.mem_toList.mp hr)
          · exact hfits r hr

theorem fitsColumns_iff {score : PyInt} {evs : List Dict} :
    FitsColumns score evs ↔ fitsInteger score.val ∧ ∀ ev ∈ evs, rowFits ev := by
  unfold FitsColumns
  simp only [rows_fit_iff, forall_const]

/-- A flush that returns had values that fit. -/
theorem fitsColumns_of_persist {pg : List (Option Bool)} {utcnow : DateTime} {s : FinishedSession}
    {db db' : Database} {ids : ℕ × ℕ × ℕ} (h : persist pg utcnow s db = (.ok ids, db')) :
    FitsColumns s.score s.events := by
  obtain ⟨hscore, hrows⟩ := fits_of_persist h
  exact fitsColumns_iff.mpr ⟨hscore, (rows_fit_iff utcnow s.events).mp hrows⟩

/-! ## Accepted events -/

/-- The points of an event can be read and fit their column, and the score they
are added to still fits. -/
def MqttEvent.Fits (e : MqttEvent) (score : PyInt) : Prop :=
  ∃ points, tolerantPoints e.payload = .ok points ∧ fitsInteger points ∧
    (scores e.topic → fitsInteger (score.val + points))

theorem rowFits_bufferedEvent {e : MqttEvent} (htopic : e.topic ∈ gameTopics) (now : DateTime) :
    rowFits (bufferedEvent e now) ↔
      ∃ points, tolerantPoints e.payload = .ok points ∧ fitsInteger points := by
  rw [rowFits, buildEventRow_bufferedEvent _ _ htopic]
  cases tolerantPoints e.payload with
  | error err => simp [Except.map]
  | ok points => simp [Except.map]

/-- What an accepted event makes of the score. -/
theorem score_of_applyEvent {e : MqttEvent} {s s' : Session} {message : SessionMessage}
    (h : applyEvent e s = .ok (some (message, s'))) :
    s'.score.val = s.score.val + if scores e.topic then pointsOf e.payload else 0 := by
  rcases applyEvent_cases h with
    ⟨htopic, n, hn, rfl, -⟩ | ⟨htopic, n, hn, rfl, -⟩ | ⟨htopic, rfl, -⟩ | ⟨htopic, rfl, -⟩
  · rw [htopic, if_pos (by decide), pointsOf, hn]
    rfl
  · rw [htopic, if_pos (by decide), pointsOf, hn]
    rfl
  · rw [htopic, if_neg (by decide), add_zero]
  · rw [htopic, if_neg (by decide), add_zero]

/-- A session that fits still does after an event exactly where the event fits. -/
theorem fitsColumns_event {e : MqttEvent} {s s' : Session} {message : SessionMessage}
    {evs : List Dict} (h : FitsColumns s.score evs)
    (happly : applyEvent e s = .ok (some (message, s'))) (now : DateTime) :
    FitsColumns s'.score (evs ++ [bufferedEvent e now]) ↔ e.Fits s.score := by
  have htopic : e.topic ∈ gameTopics := ((applyEvent_isSome_iff e s).mp ⟨message, s', happly⟩).1
  rw [fitsColumns_iff] at h ⊢
  rw [List.forall_mem_append, List.forall_mem_singleton, rowFits_bufferedEvent htopic,
    score_of_applyEvent happly]
  constructor
  · rintro ⟨hscore, -, points, hpoints, hfits⟩
    refine ⟨points, hpoints, hfits, fun hscores => ?_⟩
    rwa [if_pos hscores, ← pointsOf_of_tolerantPoints hpoints] at hscore
  · rintro ⟨points, hpoints, hfits, hscore⟩
    refine ⟨?_, h.2, points, hpoints, hfits⟩
    rw [← pointsOf_of_tolerantPoints hpoints]
    by_cases hscores : scores e.topic
    · rw [if_pos hscores]
      exact hscore hscores
    · rw [if_neg hscores, add_zero]
      exact h.1

/-! ## Acts -/

/-- The acts that change the values of a session. -/
def Act.rates : Act → Bool
  | event _ _ _ _ _ _ => true
  | score _ _ => true
  | _ => false

/-- The values an act gives to a session fit. -/
def Act.Fits : Act → Prop
  | event _ _ e s _ _ => e.Fits s.score
  | score _ n => fitsInteger n.val
  | _ => True

section Acts

variable {w : World} {a : Act} {id : String}

/-- Seen or stored, a session has the same values. -/
theorem fitsAt_iff_of_seen {s : Session} (h : w.seen id = some s) :
    w.FitsAt id ↔ FitsColumns s.score (w.buffers id) := by
  obtain ⟨s₀, hs₀, -, rfl⟩ := World.seen_eq_some.mp h
  exact ⟨fun hfits => hfits s₀ hs₀, fun hfits s hs => Option.some.inj (hs₀.symm.trans hs) ▸ hfits⟩

theorem fitsAt_iff_of_stored {s : Session} (h : w.sessions id = some s) :
    w.FitsAt id ↔ FitsColumns s.score (w.buffers id) :=
  ⟨fun hfits => hfits s h, fun hfits _ hs => Option.some.inj (h.symm.trans hs) ▸ hfits⟩

theorem fitsAt_of_absent (h : w.sessions id = none) : w.FitsAt id := by
  intro s hs
  rw [h] at hs
  cases hs

theorem fitsAt_congr {w' : World} (hsessions : w'.sessions id = w.sessions id)
    (hbuffers : w'.buffers id = w.buffers id) : w'.FitsAt id ↔ w.FitsAt id := by
  rw [World.FitsAt, World.FitsAt, hsessions, hbuffers]

theorem fitsAt_act_of_ne (ha : a.Enabled w) (hid : a.about ≠ some id) :
    (w.act a).FitsAt id ↔ w.FitsAt id :=
  fitsAt_congr (World.act_sessions_of_ne ha hid) (World.act_buffers_of_ne hid)

/-- An act that changes no values neither makes those of a session fit nor makes
them not fit: a session that is deleted has been flushed. -/
theorem fitsAt_act_of_not_rates (hw : w.Sound) (ha : a.Enabled w) (hrates : a.rates = false) :
    (w.act a).FitsAt id ↔ w.FitsAt id := by
  by_cases hid : a.about = some id
  · have hafter := World.act_sessions_about ha hid
    have hbuffers := w.act_buffers a
    cases a with
    | create s =>
        obtain rfl := Option.some.inj hid
        have hold : w.sessions s.sessionId = none := by
          by_contra hne
          obtain ⟨s', hs'⟩ := Option.ne_none_iff_exists'.mp hne
          exact ha.2.1 (hw.sessions_issued hs')
        refine iff_of_true ((fitsAt_iff_of_stored hafter).mpr ?_) (fitsAt_of_absent hold)
        rw [hbuffers]
        dsimp only
        rw [hw.buffers_issued ha.2.1, ha.2.2.1, fitsColumns_iff]
        exact ⟨by decide, by simp⟩
    | switch via broadcaster s =>
        obtain rfl := Option.some.inj hid
        rw [fitsAt_iff_of_stored hafter, fitsAt_iff_of_seen ha.1, hbuffers]
        rfl
    | flush pg clock s ids db =>
        obtain rfl := Option.some.inj hid
        refine iff_of_true (fitsAt_of_absent hafter) ((fitsAt_iff_of_seen ha.1).mpr ?_)
        exact fitsColumns_of_persist ha.2
    | start t s =>
        obtain rfl := Option.some.inj hid
        rw [fitsAt_iff_of_stored hafter, fitsAt_iff_of_seen ha.2.2.1, hbuffers]
        rfl
    | event broadcaster now e s s' message => cases hrates
    | score s n => cases hrates
    | _ => exact fitsAt_congr hafter (congrFun hbuffers id)
  · exact fitsAt_act_of_ne ha hid

/-- From values that fit, an act leads to values that fit exactly where those it
gives do. -/
theorem fitsColumns_act (hw : w.Sound) (ha : a.Enabled w) (h : w.FitsColumns) :
    (w.act a).FitsColumns ↔ a.Fits := by
  have hothers (id : String) (hid : a.about ≠ some id) : (w.act a).FitsAt id :=
    (fitsAt_act_of_ne ha hid).mpr (h id)
  have hat {id : String} (hid : a.about = some id) :
      (w.act a).FitsColumns ↔ (w.act a).FitsAt id := by
    refine ⟨fun hfits => hfits id, fun hfits id' => ?_⟩
    by_cases heq : a.about = some id'
    · exact Option.some.inj (hid.symm.trans heq) ▸ hfits
    · exact hothers id' heq
  cases a with
  | event broadcaster now e s s' message =>
      have hafter := World.act_sessions_about ha (show _ = some s.sessionId from rfl)
      rw [hat rfl, fitsAt_iff_of_stored hafter, World.act_buffers]
      dsimp only
      rw [Function.update_self]
      exact fitsColumns_event ((fitsAt_iff_of_seen ha.1).mp (h _)) ha.2.2.2.1 now
  | score s n =>
      have hafter := World.act_sessions_about ha (show _ = some s.sessionId from rfl)
      have hfits := (fitsAt_iff_of_seen ha.1).mp (h s.sessionId)
      rw [fitsColumns_iff] at hfits
      rw [hat rfl, fitsAt_iff_of_stored hafter, World.act_buffers, fitsColumns_iff]
      exact and_iff_left hfits.2
  | _ => exact iff_of_true (fun id => (fitsAt_act_of_not_rates hw ha rfl).mpr (h id)) trivial

theorem fitsColumns_foldl_of_not_rates {acts : List Act} {w : World} (hw : w.Sound)
    (hacts : Runs.Along World.act (fun w a => a.Enabled w) w acts)
    (hrates : ∀ a ∈ acts, a.rates = false) :
    (acts.foldl World.act w).FitsColumns ↔ w.FitsColumns := by
  induction acts generalizing w with
  | nil => rfl
  | cons a acts ih =>
      rw [List.foldl_cons, ih (hw.act hacts.1) hacts.2 fun a' ha' =>
        hrates a' (List.mem_cons_of_mem a ha')]
      exact forall_congr' fun id =>
        fitsAt_act_of_not_rates hw hacts.1 (hrates a List.mem_cons_self)

/-- Acts that change values once at most lead to values that fit exactly where
those they give do. -/
theorem fitsColumns_foldl {acts : List Act} {w : World} (hw : w.Sound)
    (hacts : Runs.Along World.act (fun w a => a.Enabled w) w acts)
    (honce : acts.countP Act.rates ≤ 1) (h : w.FitsColumns) :
    (acts.foldl World.act w).FitsColumns ↔ ∀ a ∈ acts, a.Fits := by
  induction acts generalizing w with
  | nil => exact iff_of_true h (by simp)
  | cons a acts ih =>
      rw [List.foldl_cons, List.forall_mem_cons]
      by_cases hrates : a.rates = true
      · have hnone : ∀ a' ∈ acts, a'.rates = false := by
          rw [List.countP_cons_of_pos hrates] at honce
          have hzero : acts.countP Act.rates = 0 := by omega
          simpa using List.countP_eq_zero.mp hzero
        have hrest : ∀ a' ∈ acts, a'.Fits := by
          intro a' ha'
          have := hnone a' ha'
          cases a' with
          | event _ _ _ _ _ _ => cases this
          | score _ _ => cases this
          | _ => trivial
        rw [fitsColumns_foldl_of_not_rates (hw.act hacts.1) hacts.2 hnone,
          fitsColumns_act hw hacts.1 h]
        exact (and_iff_left hrest).symm
      · have hrates : a.rates = false := by simpa using hrates
        have hafter : (w.act a).FitsColumns := fun id =>
          (fitsAt_act_of_not_rates hw hacts.1 hrates).mpr (h id)
        rw [List.countP_cons_of_neg (by simp [hrates])] at honce
        rw [ih (hw.act hacts.1) hacts.2 honce hafter]
        exact (and_iff_right ((fitsColumns_act hw hacts.1 h).mp hafter)).symm

end Acts

/-! ## Steps -/

/-- Every event the request makes the application accept fits, with the score of
its session, and so does the final score that it relays for a session that can be
read. -/
def Event.ValuesFit (borneId : String) (w : World) (e : Event) : Prop :=
  (∀ id s event now, w.seen id = some s → e.accepted w id = some (event, now) →
      event.Fits s.score) ∧
    ∀ event id n, e.request = .relay event → relayedScore event = some n → n.fitsStr →
      (w.borne borneId).activeSessionId = some id → (w.seen id).isSome → fitsInteger n.val

section Steps

variable {borneId : String} {w : World} {e : Event}

theorem rates_of_closes {a : Act} {pg : List (Option Bool)} {clock : Clock} {sessionId : String}
    (h : a.Closes pg clock sessionId) : a.rates = false := by
  cases a with
  | event _ _ _ _ _ _ => exact h.elim
  | score _ _ => exact h.elim
  | _ => rfl

theorem countP_rates_finishBorneGameActs (pg : List (Option Bool)) (clock : Clock)
    (borneId sessionId : String) (w : World) :
    (finishBorneGameActs pg clock borneId sessionId w).countP Act.rates = 0 :=
  List.countP_eq_zero.mpr fun a ha => by simp [rates_of_closes (mem_finishBorneGameActs ha)]

theorem countP_rates_andThen (p q : Plan) (w : World) :
    ((p.andThen q) w).countP Act.rates =
      (p w).countP Act.rates + (q ((p w).foldl World.act w)).countP Act.rates :=
  List.countP_append

theorem countP_rates_openActs (borneId : String) (w : World) :
    (openActs borneId w).countP Act.rates = 0 := by
  unfold openActs
  split <;> rfl

theorem countP_rates_markGameOverActs (borneId : String) (w : World) :
    (markGameOverActs borneId w).countP Act.rates = 0 := by
  refine List.countP_eq_zero.mpr fun a ha => ?_
  rcases mem_markGameOverActs ha with rfl | ⟨b, rfl⟩ <;> simp [Act.rates]

theorem countP_rates_relayActs (pg : List (Option Bool)) (clock : Clock) (borneId : String)
    (event : Dict) (w : World) : (relayActs pg clock borneId event w).countP Act.rates ≤ 1 := by
  unfold relayActs
  split
  · split
    · rw [countP_rates_andThen, show List.countP Act.rates [Act.display _ _] = 0 from rfl, zero_add]
      split
      · rw [finishFromRelayActs, countP_rates_andThen, countP_rates_openActs, zero_add]
        split
        · rw [countP_rates_markGameOverActs]
          exact Nat.zero_le 1
        · split
          · exact Nat.zero_le 1
          · rw [countP_rates_andThen, countP_rates_finishBorneGameActs, scoreActs]
            split <;> simp [Act.rates]
      · exact Nat.zero_le 1
    · exact Nat.zero_le 1
  · exact Nat.zero_le 1

theorem countP_rates_mqttActs (pg : List (Option Bool)) (clock : Clock) (borneId : String)
    (broadcaster : Broadcaster) (topic : String) (payload : Option Json) (w : World) :
    (mqttActs pg clock borneId broadcaster topic payload w).countP Act.rates ≤ 1 := by
  unfold mqttActs
  split
  · split
    · split <;> exact Nat.zero_le 1
    · unfold mqttEventActs
      split
      · exact Nat.zero_le 1
      · split
        · exact Nat.zero_le 1
        · split
          · split
            · split
              · rw [countP_rates_andThen]
                split
                · rw [countP_rates_finishBorneGameActs]
                  exact le_refl 1
                · exact le_refl 1
              · exact Nat.zero_le 1
            · exact Nat.zero_le 1
          · exact Nat.zero_le 1
  · exact Nat.zero_le 1

/-- A request changes values once at most. -/
theorem countP_rates_acts (borneId : String) (w : World) (e : Event) :
    (e.acts borneId w).countP Act.rates ≤ 1 := by
  have hyields : ∀ a ∈ e.acts borneId w, e.Yields borneId w a := fun a => acts_yields
  obtain ⟨request, clock, uuid, pg⟩ := e
  cases request with
  | mqtt broadcaster topic payload => exact countP_rates_mqttActs _ _ _ _ _ _ _
  | relay event => exact countP_rates_relayActs _ _ _ _ _
  | _ =>
      refine (List.countP_eq_zero.mpr fun a ha => ?_).trans_le (Nat.zero_le 1)
      have hkind := hyields a ha
      cases a with
      | event _ _ _ _ _ _ => exact hkind.elim
      | score _ _ => exact hkind.elim
      | _ => simp [Act.rates]

/-- The session of an event act is the one that is seen. -/
theorem seen_of_event_mem_acts {broadcaster : Broadcaster} {now : DateTime} {event : MqttEvent}
    {s s' : Session} {message : SessionMessage}
    (ha : .event broadcaster now event s s' message ∈ e.acts borneId w) :
    w.seen s.sessionId = some s := by
  have hkind := acts_yields ha
  obtain ⟨request, clock, uuid, pg⟩ := e
  cases request with
  | mqtt bc topic payload =>
      change _ ∈ mqttActs pg clock borneId bc topic payload w at ha
      unfold mqttActs at ha
      split at ha
      · split at ha
        · split at ha
          · cases List.mem_singleton.mp ha
          · cases ha
        · unfold mqttEventActs at ha
          split at ha
          · cases ha
          · split at ha
            · cases ha
            · next s₁ hseen =>
                split at ha
                · split at ha
                  · split at ha
                    · rcases mem_andThen ha with ha | ⟨w', -, ha⟩
                      · cases List.mem_singleton.mp ha
                        rw [World.seen_sessionId hseen]
                        exact hseen
                      · dsimp only at ha
                        split at ha
                        · exact (mem_finishBorneGameActs ha).elim
                        · cases ha
                    · cases ha
                  · cases ha
                · cases ha
      · cases ha
  | relay event => exact hkind.elim fun _ h => h.elim
  | _ => exact hkind.elim

/-- An event is accepted for a session where an act applies it. -/
theorem accepted_iff_event_mem {id : String} {event : MqttEvent} {now : DateTime} :
    e.accepted w id = some (event, now) ↔ ∃ broadcaster s s' message, s.sessionId = id ∧
      .event broadcaster now event s s' message ∈ e.acts borneId w := by
  rw [← Option.mem_toList, ← flatMap_accepted_acts borneId, List.mem_flatMap]
  constructor
  · rintro ⟨a, ha, hmem⟩
    cases a with
    | event broadcaster now' event' s s' message =>
        rw [Act.accepted] at hmem
        split at hmem
        · next hid =>
            cases List.mem_singleton.mp hmem
            exact ⟨broadcaster, s, s', message, hid, ha⟩
        · cases hmem
    | _ => cases hmem
  · rintro ⟨broadcaster, s, s', message, hid, ha⟩
    exact ⟨_, ha, by rw [Act.accepted, if_pos hid]; exact List.mem_singleton.mpr rfl⟩

theorem unreadable_of_seen {id : String} {s : Session} (h : w.seen id = some s) :
    w.unreadable id = false := by
  rw [World.unreadable, World.readSession_of_seen h]

/-- A score relayed for a session that can be read is written, where `str` writes it. -/
theorem score_mem_finishFromRelayActs {pg : List (Option Bool)} {clock : Clock}
    {finalScore : Json} {id : String} {s : Session} {n : PyInt}
    (hn : finalScore.asPyInt = some n) (hfits : n.fitsStr)
    (hactive : (w.borne borneId).activeSessionId = some id) (hs : w.seen id = some s) :
    .score s n ∈ finishFromRelayActs pg clock borneId finalScore w := by
  refine List.mem_append_right _ ?_
  have hseen := seen_openActs w borneId id
  rw [hs] at hseen
  dsimp only
  rw [borne_openActs, hactive]
  dsimp only
  rw [if_neg (by simp [unreadable_of_seen hseen, World.refuses, hseen, hn, hfits])]
  refine List.mem_append_left _ ?_
  rw [scoreActs, hseen, hn]
  exact List.mem_singleton.mpr rfl

theorem score_mem_acts {event : Dict} {id : String} {s : Session} {n : PyInt}
    (hrequest : e.request = .relay event) (hn : relayedScore event = some n) (hfits : n.fitsStr)
    (hactive : (w.borne borneId).activeSessionId = some id) (hs : w.seen id = some s) :
    .score s n ∈ e.acts borneId w := by
  obtain ⟨request, clock, uuid, pg⟩ := e
  obtain rfl : request = .relay event := hrequest
  change _ ∈ relayActs pg clock borneId event w
  unfold relayedScore at hn
  split at hn
  · next type htype =>
      split at hn
      · next hover =>
          subst hover
          rw [relayActs, htype]
          dsimp only
          rw [if_pos (by decide)]
          exact List.mem_append_right _ (score_mem_finishFromRelayActs hn hfits hactive hs)
      · cases hn
  · cases hn

/-- The acts of a request give values that fit where the request does. -/
theorem fits_acts_iff (borneId : String) (w : World) (e : Event) :
    (∀ a ∈ e.acts borneId w, a.Fits) ↔ e.ValuesFit borneId w := by
  constructor
  · intro h
    constructor
    · intro id s event now hs haccepted
      obtain ⟨broadcaster, s₁, s', message, rfl, ha⟩ := accepted_iff_event_mem.mp haccepted
      obtain rfl := Option.some.inj ((seen_of_event_mem_acts ha).symm.trans hs)
      exact h _ ha
    · intro event id n hrequest hn hfits hactive hseen
      obtain ⟨s, hs⟩ := Option.isSome_iff_exists.mp hseen
      exact h _ (score_mem_acts hrequest hn hfits hactive hs)
  · rintro ⟨hevents, hscore⟩ a ha
    cases a with
    | event broadcaster now event s s' message =>
        exact hevents _ _ _ _ (seen_of_event_mem_acts ha)
          (accepted_iff_event_mem.mpr ⟨broadcaster, s, s', message, rfl, ha⟩)
    | score s n =>
        obtain ⟨event, hrequest, hn⟩ := score_of_mem_acts ha
        have hyields := acts_yields ha
        rw [Event.Yields, hrequest] at hyields
        obtain ⟨-, hactive, hseen, hfits⟩ := hyields
        exact hscore event s.sessionId n hrequest hn hfits hactive (by simp [hseen])
    | _ => trivial

theorem fitsColumns_step_iff (hw : w.Sound) (hfresh : e.Fresh w) (h : w.FitsColumns) :
    (step borneId w e).FitsColumns ↔ e.ValuesFit borneId w := by
  rw [step_eq, fitsColumns_foldl hw (acts_enabled hfresh borneId) (countP_rates_acts _ _ _) h]
  exact fits_acts_iff borneId w e

end Steps

/-! ## Flushes -/

/-- A flush of a session that can be read returns exactly where its values fit;
otherwise it raises, and not that the session does not exist. -/
theorem finishAndPersist_cases {ctx : Context} {w : World} (hpg : ∀ x ∈ ctx.pg, x = none)
    (clock : Clock) {id : String} {s : Session} (hs : w.seen id = some s) :
    (FitsColumns s.score (w.buffers id) ∧
        ((finishAndPersist clock id).run (handle ctx) w).1.isOk) ∨
      (¬ FitsColumns s.score (w.buffers id) ∧ ∃ e, e.isNotFound = false ∧
        ((finishAndPersist clock id).run (handle ctx) w).1 = .error e) := by
  obtain rfl := World.seen_sessionId hs
  have hread : w.readSession s.sessionId = .ok (some s) := by
    rw [unreadable_eq_false (unreadable_of_seen hs), hs]
  obtain ⟨best, hbest⟩ := run_previousBestFor ctx w s.pseudo s.mode
  rw [finishAndPersist, Prog.run_bind, Prog.run_perform, handle, hread]
  dsimp only
  rw [Prog.run_bind, Prog.run_perform]
  dsimp only [handle]
  rw [Prog.run_bind, hbest]
  dsimp only
  rw [Prog.run_bind, Prog.run_perform]
  dsimp only [handle]
  obtain ⟨⟨r, db⟩, hpersist⟩ : ∃ out, persist ctx.pg clock.utcnow
      (s.finished clock (w.buffers s.sessionId)) w.db = out := ⟨_, rfl⟩
  rw [hpersist]
  cases r with
  | ok ids => exact Or.inl ⟨fitsColumns_of_persist hpersist, rfl⟩
  | error e =>
      refine Or.inr ⟨?_, e, persist_isNotFound hpg (by rw [hpersist]), rfl⟩
      rintro ⟨hscore, hrows⟩
      obtain ⟨rows, hbuild, hfits⟩ := hrows clock.utcnow
      obtain ⟨ids, hids⟩ := persist_of_fits (s := s.finished clock (w.buffers s.sessionId)) hpg
        hbuild hscore hfits w.db
      rw [hpersist] at hids
      cases hids

/-- A session whose values fit is flushed where no statement fails. -/
theorem flushes_of_fitsColumns {w : World} (h : w.FitsColumns) : w.Flushes := by
  intro pg clock id hpg hseen
  obtain ⟨s, hs⟩ := Option.isSome_iff_exists.mp hseen
  rcases finishAndPersist_cases (show ∀ x ∈ ({ pg } : Context).pg, x = none from hpg) clock hs with
    ⟨-, hok⟩ | ⟨hfits, -⟩
  · rcases hrun : (finishAndPersist clock id).run (handle { pg }) w with ⟨e | res, w'⟩
    · rw [hrun] at hok
      cases hok
    · exact ⟨res, w', rfl⟩
  · exact absurd ((fitsAt_iff_of_seen hs).mp (h id)) hfits

/-! ## Sums of points -/

/-- What a session is given: the points of a bumper or a bonus that is accepted, or a final
score that is relayed. -/
inductive Rating
  | points (n : ℤ)
  | final (n : ℤ)

def Rating.after (total : ℤ) : Rating → ℤ
  | points n => total + n
  | final n => n

/-- The sum of the points given since the last final score, and that score. -/
def tally (rs : List Rating) : ℤ :=
  rs.foldl Rating.after 0

theorem tally_concat (rs : List Rating) (r : Rating) : tally (rs ++ [r]) = r.after (tally rs) := by
  rw [tally, List.foldl_append]
  rfl

/-- What a request gives to the session `id`. -/
def Event.rating (borneId : String) (w : World) (id : String) (e : Event) : Option Rating :=
  match e.request with
  | .relay event =>
      (relayedScore event).bind fun n =>
        if (w.borne borneId).activeSessionId = some id ∧ (w.seen id).isSome ∧ n.fitsStr then
          some (.final n.val)
        else none
  | _ =>
      (e.accepted w id).bind fun accepted =>
        if scores accepted.1.topic then some (.points (pointsOf accepted.1.payload)) else none

/-- What a run gives to the session `id`, in order. -/
def ratings (borneId id : String) : World → List Event → List Rating
  | _, [] => []
  | w, e :: evs => (e.rating borneId w id).toList ++ ratings borneId id (step borneId w e) evs

/-- The points of an event can be read and fit their column. -/
def MqttEvent.PointsFit (e : MqttEvent) : Prop :=
  ∃ points, tolerantPoints e.payload = .ok points ∧ fitsInteger points

/-- What an act gives to the session `id`. -/
def Act.rating (id : String) : Act → Option Rating
  | event _ _ e s _ _ =>
      if s.sessionId = id ∧ scores e.topic then some (.points (pointsOf e.payload)) else none
  | score s n => if s.sessionId = id then some (.final n.val) else none
  | _ => none

/-- The score of a stored session is the sum of what it was given. -/
structure World.Tallied (w : World) (given : String → List Rating) : Prop where
  score : ∀ {id s}, w.sessions id = some s → s.score.val = tally (given id)
  fresh : ∀ id, id ∉ w.issued → given id = []

theorem Act.rating_of_ne {a : Act} {id : String} (h : a.about ≠ some id) : a.rating id = none := by
  cases a with
  | event broadcaster now e s s' message => exact if_neg fun hid => h (congrArg some hid.1)
  | score s n => exact if_neg fun hid => h (congrArg some hid)
  | _ => rfl

theorem World.Tallied.act {w : World} {given : String → List Rating} {a : Act}
    (h : w.Tallied given) (hw : w.Sound) (ha : a.Enabled w) :
    (w.act a).Tallied fun id => given id ++ (a.rating id).toList where
  score {id s} hs := by
    by_cases hid : a.about = some id
    · rw [World.act_sessions_about ha hid] at hs
      have hseen {s₀ : Session} (hseen : w.seen id = some s₀) : s₀.score.val = tally (given id) := by
        obtain ⟨s₁, hs₁, -, rfl⟩ := World.seen_eq_some.mp hseen
        exact h.score (s := s₁) hs₁
      cases a with
      | create s₀ =>
          obtain rfl := Option.some.inj hid
          obtain rfl := Option.some.inj hs
          rw [h.fresh _ ha.2.1, ha.2.2.1]
          rfl
      | switch via broadcaster s₀ =>
          obtain rfl := Option.some.inj hid
          obtain rfl := Option.some.inj hs
          exact (hseen ha.1).trans (congrArg tally (List.append_nil _).symm)
      | event broadcaster now e s₀ s' message =>
          obtain rfl := Option.some.inj hid
          obtain rfl := Option.some.inj hs
          rw [Act.rating, score_of_applyEvent ha.2.2.2.1, hseen ha.1]
          by_cases hscores : scores e.topic
          · rw [if_pos hscores, if_pos ⟨rfl, hscores⟩, Option.toList_some, tally_concat]
            rfl
          · rw [if_neg hscores, if_neg fun hboth => hscores hboth.2, add_zero, Option.toList_none,
              List.append_nil]
      | score s₀ n =>
          obtain rfl := Option.some.inj hid
          obtain rfl := Option.some.inj hs
          rw [Act.rating, if_pos rfl, Option.toList_some, tally_concat]
          rfl
      | flush pg clock s₀ ids db => cases hs
      | start t s₀ =>
          obtain rfl := Option.some.inj hid
          obtain rfl := Option.some.inj hs
          exact (hseen ha.2.2.1).trans (congrArg tally (List.append_nil _).symm)
      | _ => exact (h.score hs).trans (congrArg tally (List.append_nil _).symm)
    · rw [World.act_sessions_of_ne ha hid] at hs
      rw [Act.rating_of_ne hid, Option.toList_none, List.append_nil]
      exact h.score hs
  fresh id hid := by
    have hne : a.about ≠ some id := fun habout => hid (hw.about_issued ha habout)
    rw [h.fresh id fun hold => hid (World.issued_act a hold), Act.rating_of_ne hne]
    rfl

theorem World.Tallied.foldl {acts : List Act} {w : World} {given : String → List Rating}
    (h : w.Tallied given) (hw : w.Sound)
    (hacts : Runs.Along World.act (fun w a => a.Enabled w) w acts) :
    (acts.foldl World.act w).Tallied fun id => given id ++ acts.filterMap (Act.rating id) := by
  induction acts generalizing w given with
  | nil => simpa using h
  | cons a acts ih =>
      have hrest := ih (h.act hw hacts.1) (hw.act hacts.1) hacts.2
      have hsame (id : String) : given id ++ (a.rating id).toList ++ acts.filterMap (Act.rating id) =
          given id ++ (a :: acts).filterMap (Act.rating id) := by
        rw [List.append_assoc, List.filterMap_cons]
        cases a.rating id <;> rfl
      exact funext hsame ▸ hrest

/-- A list with at most the element of an option is its list. -/
theorem eq_toList_of_mem {α : Type} {l : List α} {o : Option α} (hlength : l.length ≤ 1)
    (hmem : ∀ x, x ∈ l ↔ o = some x) : l = o.toList := by
  rcases l with - | ⟨x, - | ⟨y, l⟩⟩
  · cases o with
    | none => rfl
    | some x => exact absurd ((hmem x).mpr rfl) List.not_mem_nil
  · rw [(hmem x).mp List.mem_cons_self]
    rfl
  · simp at hlength

theorem Act.rates_of_rating {a : Act} {id : String} (h : (a.rating id).isSome) : a.rates = true := by
  cases a with
  | event _ _ _ _ _ _ => rfl
  | score _ _ => rfl
  | _ => cases h

theorem length_filterMap_rating (id : String) (acts : List Act) :
    (acts.filterMap (Act.rating id)).length ≤ acts.countP Act.rates := by
  rw [List.length_filterMap_eq_countP]
  exact List.countP_mono_left fun a _ h => Act.rates_of_rating h

theorem accepted_of_not_mqtt {w : World} {id : String} {e : Event} {x : MqttEvent × DateTime}
    (h : e.accepted w id = some x) (event : Dict) : e.request ≠ .relay event := by
  intro hrequest
  rw [Event.accepted, hrequest] at h
  cases h

/-- A request that is no relay gives the points of what it makes the application accept. -/
theorem rating_of_accepted {borneId : String} {w : World} {id : String} {e : Event}
    {x : MqttEvent × DateTime} (h : e.accepted w id = some x) :
    e.rating borneId w id =
      if scores x.1.topic then some (.points (pointsOf x.1.payload)) else none := by
  have hrelay := accepted_of_not_mqtt h
  unfold Event.rating
  split
  · next event hrequest => exact absurd hrequest (hrelay event)
  · rw [h]
    rfl

/-- The acts of a request give what the request is said to. -/
theorem filterMap_rating_acts (borneId id : String) (w : World) (e : Event) :
    (e.acts borneId w).filterMap (Act.rating id) = (e.rating borneId w id).toList := by
  refine eq_toList_of_mem
    ((length_filterMap_rating id _).trans (countP_rates_acts borneId w e)) fun r => ?_
  rw [List.mem_filterMap]
  constructor
  · rintro ⟨a, ha, hr⟩
    cases a with
    | event broadcaster now event s s' message =>
        rw [Act.rating] at hr
        split at hr
        · next hboth =>
            rw [rating_of_accepted (accepted_iff_event_mem.mpr ⟨_, s, s', message, hboth.1, ha⟩),
              if_pos hboth.2, hr]
        · cases hr
    | score s n =>
        rw [Act.rating] at hr
        split at hr
        · next hid =>
            obtain ⟨event, hrequest, hn⟩ := score_of_mem_acts ha
            have hyields := acts_yields ha
            rw [Event.Yields, hrequest] at hyields
            obtain ⟨-, hactive, hseen, hfits⟩ := hyields
            have hrated : (w.borne borneId).activeSessionId = some id ∧ (w.seen id).isSome ∧
                n.fitsStr := ⟨hid ▸ hactive, by simp [← hid, hseen], hfits⟩
            rw [Event.rating, hrequest]
            dsimp only
            rw [hn, Option.bind_some, if_pos hrated, hr]
        · cases hr
    | _ => cases hr
  · intro hr
    unfold Event.rating at hr
    split at hr
    · next event hrequest =>
        obtain ⟨n, hn, hr⟩ := Option.bind_eq_some_iff.mp hr
        split at hr
        · next hrated =>
            obtain ⟨hactive, hseen, hfits⟩ := hrated
            obtain ⟨s, hs⟩ := Option.isSome_iff_exists.mp hseen
            exact ⟨_, score_mem_acts hrequest hn hfits hactive hs,
              (if_pos (World.seen_sessionId hs)).trans hr⟩
        · cases hr
    · obtain ⟨x, haccepted, hr⟩ := Option.bind_eq_some_iff.mp hr
      obtain ⟨broadcaster, s, s', message, hid, ha⟩ := accepted_iff_event_mem.mp haccepted
      split at hr
      · next hscores => exact ⟨_, ha, (if_pos ⟨hid, hscores⟩).trans hr⟩
      · cases hr

theorem World.Tallied.step {borneId : String} {w : World} {given : String → List Rating}
    (h : w.Tallied given) (hw : w.Sound) {e : Event} (hfresh : e.Fresh w) :
    (FlipperBack.step borneId w e).Tallied
      fun id => given id ++ (e.rating borneId w id).toList := by
  have hfold := h.foldl hw (acts_enabled hfresh borneId)
  rw [← step_eq] at hfold
  simpa only [filterMap_rating_acts] using hfold

/-- What a relay gives, where it is for a session that can be read. -/
theorem rating_of_relay {borneId : String} {w : World} {id : String} {e : Event} {event : Dict}
    {n : PyInt} (hrequest : e.request = .relay event) (hn : relayedScore event = some n)
    (hfits : n.fitsStr) (hactive : (w.borne borneId).activeSessionId = some id)
    (hseen : (w.seen id).isSome) : e.rating borneId w id = some (.final n.val) := by
  rw [Event.rating, hrequest]
  dsimp only
  rw [hn, Option.bind_some, if_pos ⟨hactive, hseen, hfits⟩]

theorem seen_of_accepted {w : World} {id : String} {e : Event} {x : MqttEvent × DateTime}
    (h : e.accepted w id = some x) : ∃ s, w.seen id = some s := by
  obtain ⟨broadcaster, s, s', message, rfl, ha⟩ :=
    (@accepted_iff_event_mem "" _ _ _ _ _).mp h
  exact ⟨s, seen_of_event_mem_acts ha⟩

/-- A request gives values that fit where its points do, and the sums they lead to. -/
theorem valuesFit_iff {borneId : String} {w : World} {given : String → List Rating}
    (h : w.Tallied given) (e : Event) :
    e.ValuesFit borneId w ↔ ∀ id, (∀ x, e.accepted w id = some x → x.1.PointsFit) ∧
      ∀ r, e.rating borneId w id = some r → fitsInteger (tally (given id ++ [r])) := by
  have hseen {id : String} {s : Session} (hs : w.seen id = some s) :
      s.score.val = tally (given id) := by
    obtain ⟨s₀, hs₀, -, rfl⟩ := World.seen_eq_some.mp hs
    exact h.score (s := s₀) hs₀
  constructor
  · rintro ⟨hevents, hrelay⟩ id
    have hfits {x : MqttEvent × DateTime} (hx : e.accepted w id = some x) :
        ∃ s, w.seen id = some s ∧ x.1.Fits s.score := by
      obtain ⟨s, hs⟩ := seen_of_accepted hx
      exact ⟨s, hs, hevents id s x.1 x.2 hs hx⟩
    refine ⟨fun x hx => ?_, fun r hr => ?_⟩
    · obtain ⟨s, -, points, hpoints, hfit, -⟩ := hfits hx
      exact ⟨points, hpoints, hfit⟩
    · rw [tally_concat]
      unfold Event.rating at hr
      split at hr
      · next event hrequest =>
          obtain ⟨n, hn, hr⟩ := Option.bind_eq_some_iff.mp hr
          split at hr
          · next hrated =>
              rw [← Option.some.inj hr]
              exact hrelay event id n hrequest hn hrated.2.2 hrated.1 hrated.2.1
          · cases hr
      · obtain ⟨x, hx, hr⟩ := Option.bind_eq_some_iff.mp hr
        split at hr
        · next hscores =>
            obtain ⟨s, hs, points, hpoints, -, hsum⟩ := hfits hx
            rw [← Option.some.inj hr, Rating.after, ← hseen hs,
              ← pointsOf_of_tolerantPoints hpoints]
            exact hsum hscores
        · cases hr
  · intro hall
    constructor
    · intro id s event now hs hx
      obtain ⟨points, hpoints, hfit⟩ := (hall id).1 _ hx
      refine ⟨points, hpoints, hfit, fun hscores => ?_⟩
      have hsum := (hall id).2 _ ((rating_of_accepted hx).trans (if_pos hscores))
      rwa [tally_concat, Rating.after, ← hseen hs, ← pointsOf_of_tolerantPoints hpoints] at hsum
    · intro event id n hrequest hn hfits hactive hs
      have hsum := (hall id).2 _ (rating_of_relay hrequest hn hfits hactive hs)
      rwa [tally_concat] at hsum

/-- The sums along `a`, if it is there, and then along `rs`. -/
theorem prefix_toList_append {a : Option Rating} {rs : List Rating} {P : List Rating → Prop}
    (hnil : P []) : (∀ l, l <+: a.toList ++ rs → P l) ↔ ∀ l, l <+: rs → P (a.toList ++ l) := by
  cases a with
  | none => rfl
  | some r =>
      refine ⟨fun h l hl => h _ (List.prefix_append_right_inj _ |>.mpr hl), fun h l hl => ?_⟩
      rcases List.prefix_cons_iff.mp hl with rfl | ⟨l', rfl, hl'⟩
      · exact hnil
      · exact h l' hl'

/-- From values that fit, a run keeps values that fit as long as the points of each accepted
event fit, and the sums of what each session is given. -/
theorem along_fitsColumns_iff {borneId : String} {w : World} {given : String → List Rating}
    (hw : w.Sound) (hcolumns : w.FitsColumns) (htallied : w.Tallied given)
    (hgiven : ∀ id, fitsInteger (tally (given id))) {evs : List Event}
    (hfresh : Runs.Along (step borneId) (fun w e => e.Fresh w) w evs) :
    Runs.Along (step borneId) (fun w e => (step borneId w e).FitsColumns) w evs ↔
      ∀ id, (∀ x ∈ acceptedEvents borneId id w evs, x.1.PointsFit) ∧
        ∀ rs, rs <+: ratings borneId id w evs → fitsInteger (tally (given id ++ rs)) := by
  induction evs generalizing w given with
  | nil =>
      refine iff_of_true trivial fun id => ⟨by simp [acceptedEvents], fun rs hrs => ?_⟩
      rw [List.prefix_nil.mp hrs, List.append_nil]
      exact hgiven id
  | cons e evs ih =>
      have hstep := (@fitsColumns_step_iff borneId _ _ hw hfresh.1 hcolumns).trans
        (valuesFit_iff htallied e)
      have hsums (h : ∀ id, (∀ x, e.accepted w id = some x → x.1.PointsFit) ∧
          ∀ r, e.rating borneId w id = some r → fitsInteger (tally (given id ++ [r]))) (id : String) :
          fitsInteger (tally (given id ++ (e.rating borneId w id).toList)) := by
        cases hr : e.rating borneId w id with
        | none =>
            rw [Option.toList_none, List.append_nil]
            exact hgiven id
        | some r => exact (h id).2 r hr
      have hsplit (id : String) := @prefix_toList_append (e.rating borneId w id)
        (ratings borneId id (step borneId w e) evs)
        (fun rs => fitsInteger (tally (given id ++ rs))) (by rw [List.append_nil]; exact hgiven id)
      constructor
      · rintro ⟨hfits, hrest⟩
        have hvalues := hstep.mp hfits
        have hrest := (ih (sound_step hw hfresh.1) hfits (htallied.step hw hfresh.1) (hsums hvalues)
          hfresh.2).mp hrest
        refine fun id => ⟨fun x hx => ?_, (hsplit id).mpr fun l hl => ?_⟩
        · rcases List.mem_append.mp hx with hx | hx
          · exact (hvalues id).1 x (Option.mem_toList.mp hx)
          · exact (hrest id).1 x hx
        · rw [← List.append_assoc]
          exact (hrest id).2 l hl
      · intro hall
        have hvalues (id : String) : (∀ x, e.accepted w id = some x → x.1.PointsFit) ∧
            ∀ r, e.rating borneId w id = some r → fitsInteger (tally (given id ++ [r])) := by
          refine ⟨fun x hx => (hall id).1 x ?_, fun r hr => (hall id).2 [r] ?_⟩
          · exact List.mem_append_left _ (Option.mem_toList.mpr hx)
          · rw [ratings, hr]
            exact List.prefix_append [r] _
        have hfits := hstep.mpr hvalues
        refine ⟨hfits, (ih (sound_step hw hfresh.1) hfits (htallied.step hw hfresh.1)
          (hsums hvalues) hfresh.2).mpr fun id => ⟨fun x hx => ?_, fun rs hrs => ?_⟩⟩
        · exact (hall id).1 x (List.mem_append_right _ hx)
        · rw [List.append_assoc]
          exact (hsplit id).mp (hall id).2 rs hrs

/-- In a run, the values of every stored session fit their columns, and every
session that can be read is flushed where no statement fails, as long as the points of each
accepted event fit, and each sum of the points accepted for a session since the last final
score that is relayed, and no longer. -/
theorem values_fit_iff (borneId : String) (db : Database) (evs : List Event)
    (hfresh : Runs.Along (step borneId) (fun w e => e.Fresh w) { db } evs) :
    Runs.Along (step borneId) (fun w e => (step borneId w e).FitsColumns ∧
        (step borneId w e).Flushes) { db } evs ↔
      ∀ id, (∀ x ∈ acceptedEvents borneId id { db } evs, x.1.PointsFit) ∧
        ∀ rs, rs <+: ratings borneId id { db } evs → fitsInteger (tally rs) := by
  have hinit : World.FitsColumns { db } := fun id => fitsAt_of_absent rfl
  have htallied : World.Tallied { db } fun _ => [] := ⟨nofun, fun _ _ => rfl⟩
  have hcolumns := @along_fitsColumns_iff borneId _ _ (World.Sound.init db) hinit htallied
    (fun _ => by decide) _ hfresh
  exact ⟨fun h => hcolumns.mp (h.mono fun _ _ => And.left),
    fun h => (hcolumns.mpr h).mono fun _ _ hfits => ⟨hfits, flushes_of_fitsColumns hfits⟩⟩

/-- A bumper hit worth more than an `INTEGER` column holds. -/
def hugeHit : List Event :=
  gameStart [.session] "s" ++ [sensorEvent [.session] topicBumperHit "s" 3000000000]

theorem values_fit_iff_hugeHit :
    Runs.Along (step "b") (fun w e => (step "b" w e).FitsColumns ∧ (step "b" w e).Flushes) {}
        hugeHit ↔
      ∀ id, (∀ x ∈ acceptedEvents "b" id {} hugeHit, x.1.PointsFit) ∧
        ∀ rs, rs <+: ratings "b" id {} hugeHit → fitsInteger (tally rs) :=
  values_fit_iff "b" {} hugeHit (by decide +kernel)

/-- The score is stored and no flush of the session succeeds. -/
theorem hugeHit_unflushable :
    let w := hugeHit.foldl (step "b") {}
    (w.seen "s").map Session.score = some (.int 3000000000) ∧ ¬ w.FitsColumns ∧ ¬ w.Flushes ∧
      ((finishAndPersist default "s").run (handle {}) w).1.toBool = false := by
  intro w
  have hscore : (w.seen "s").map Session.score = some (.int 3000000000) := by decide +kernel
  have hflush : ((finishAndPersist default "s").run (handle {}) w).1.toBool = false := by
    decide +kernel
  obtain ⟨s, hs, hs'⟩ := Option.map_eq_some_iff.mp hscore
  refine ⟨hscore, fun h => ?_, fun h => ?_, hflush⟩
  · have hfits := ((fitsAt_iff_of_seen hs).mp (h "s")).1
    rw [hs'] at hfits
    exact absurd hfits (by decide)
  · obtain ⟨res, w', hrun⟩ := h [] default "s" (by simp) (by simp [hs])
    rw [hrun] at hflush
    cases hflush

end FlipperBack
