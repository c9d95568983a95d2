import FlipperBack.Properties.FlushContent

/-!
# The rows of buffered events

`buildEventRows` is to give one row for each event of a buffer, whatever the
payloads. On the topics that count points, what cannot be read was refused before
it was buffered; on the others the points are read for the first time, and infinite
ones raise an exception that is not caught (`buildEventRows_tolerant`).
-/

namespace FlipperBack

open Effects Python

/-- An event that `HandleMqttEventUseCase` pushes to a buffer: it names a session and
is applied to it. -/
def MqttEvent.Pushed (e : MqttEvent) : Prop :=
  e.sessionId?.isSome ∧ ∃ session message session',
    applyEvent e session = .ok (some (message, session'))

/-- The points of an event are `Infinity` or `-Infinity`. -/
def MqttEvent.InfinitePoints (e : MqttEvent) : Prop :=
  ∃ negative, e.payload.get "points" = some (.float (.inf negative))

/-- Whether a call pushes nothing but such events, as they are kept. -/
def Op.PushesEvents : Op → Prop
  | bufferPush _ ev => ∃ e now, e.Pushed ∧ ev = bufferedEvent e now
  | _ => True

/-- Nothing else is in a buffer. -/
theorem handleMqttEvent_pushes (broadcaster : Broadcaster)
    {onGameOver : Option (String → UseCase Unit)}
    (hcallback : ∀ callback ∈ onGameOver, ∀ sessionId, (callback sessionId).All Op.PushesEvents)
    (now : DateTime) (event : MqttEvent) :
    (handleMqttEvent broadcaster onGameOver now event).All Op.PushesEvents := by
  unfold handleMqttEvent
  cases hid : event.sessionId? with
  | none => trivial
  | some sessionId =>
      refine Prog.All.bind ((Prog.all_perform _ _).mpr trivial) fun found => ?_
      cases found with
      | none => trivial
      | some session =>
          dsimp only
          split
          · cases happly : applyEvent event session with
            | error e => trivial
            | ok applied =>
                cases applied with
                | none => trivial
                | some applied =>
                    obtain ⟨message, session'⟩ := applied
                    have hpushed : event.Pushed :=
                      ⟨by rw [hid]; rfl, session, message, session', happly⟩
                    rw [liftPy_ok]
                    refine Prog.All.bind (p := await (.sessionUpdate session'))
                      ((Prog.all_perform _ _).mpr trivial) fun _ => ?_
                    refine Prog.All.bind ((Prog.all_perform _ _).mpr ⟨event, now, hpushed, rfl⟩)
                      fun _ => ?_
                    refine Prog.All.bind ((Prog.all_perform _ _).mpr trivial) fun _ => ?_
                    split
                    · refine Prog.All.bind ((Prog.all_perform _ _).mpr trivial) fun _ => ?_
                      cases onGameOver with
                      | none => trivial
                      | some callback => exact hcallback callback rfl sessionId
                    · trivial
          · trivial

/-! ## Points -/

/-- Points are read, or count for 0, where they are not infinite. -/
theorem tolerantPoints_ok_iff (e : MqttEvent) :
    tolerantPoints e.payload = .ok (pointsOf e.payload) ↔ ¬ e.InfinitePoints := by
  constructor
  · rintro h ⟨negative, hinf⟩
    rw [tolerantPoints, hinf] at h
    cases h
  · intro hfinite
    unfold tolerantPoints pointsOf eventPoints
    cases hread : ((e.payload.get "points").getD (.int 0)).toInt with
    | ok points => rfl
    | error err =>
        rcases Json.toInt_error hread with rfl | rfl | ⟨-, negative, hinf⟩
        · rfl
        · rfl
        · -- An absent value counts for 0, so the infinite one is there.
          refine absurd ⟨negative, ?_⟩ hfinite
          cases hget : e.payload.get "points" with
          | none =>
              rw [hget] at hinf
              cases hinf
          | some value =>
              rw [hget] at hinf
              exact congrArg some hinf

/-! ## Rows -/

theorem buildEventRow_ok_iff {e : MqttEvent} (h : e.Pushed) (utcnow now : DateTime) :
    buildEventRow utcnow (bufferedEvent e now) = .ok (some (acceptedRow (e, now))) ↔
      ¬ e.InfinitePoints := by
  obtain ⟨-, session, message, session', happly⟩ := h
  have htopic := ((applyEvent_isSome_iff e session).mp ⟨message, session', happly⟩).1
  rw [← tolerantPoints_ok_iff, buildEventRow_bufferedEvent _ _ htopic]
  constructor
  · intro hrow
    cases hpoints : tolerantPoints e.payload with
    | error err =>
        rw [hpoints] at hrow
        cases hrow
    | ok points => rw [pointsOf_of_tolerantPoints hpoints]
  · intro hpoints
    rw [hpoints]
    rfl

/-- The rows of a buffer are built, one for each event and in order, where no event has
infinite points. -/
theorem buildEventRows_tolerant (utcnow : DateTime) (pushed : List (MqttEvent × DateTime))
    (h : ∀ x ∈ pushed, x.1.Pushed) :
    buildEventRows utcnow (pushed.map acceptedEntry) = .ok (pushed.map acceptedRow) ↔
      ∀ x ∈ pushed, ¬ x.1.InfinitePoints := by
  induction pushed with
  | nil => exact iff_of_true rfl (by simp)
  | cons x pushed ih =>
      rw [List.forall_mem_cons] at h ⊢
      rw [← buildEventRow_ok_iff h.1 utcnow x.2, ← ih h.2]
      constructor
      · intro hrows
        obtain ⟨row, hrow, hrows⟩ := bind_eq_ok.mp hrows
        obtain ⟨rows, hrest, hrows⟩ := bind_eq_ok.mp hrows
        obtain ⟨-, session, message, session', happly⟩ := h.1
        have htopic := ((applyEvent_isSome_iff x.1 session).mp ⟨message, session', happly⟩).1
        obtain rfl := buildEventRow_accepted htopic hrow
        obtain ⟨-, rfl⟩ := List.cons.inj (Except.ok.inj hrows)
        exact ⟨hrow, hrest⟩
      · rintro ⟨hrow, hrows⟩
        exact bind_eq_ok.mpr ⟨_, hrow, bind_eq_ok.mpr ⟨_, hrows, rfl⟩⟩

/-- Two events of a session: points that cannot be read, and `points` at the end. -/
def lastEvents (points : Json) : List (MqttEvent × DateTime) :=
  [({ topic := topicBallLost, payload := [("sessionId", .str "s"), ("points", .str "x")] }, default),
    ({ topic := topicGameOver, payload := [("sessionId", .str "s"), ("points", points)] }, default)]

theorem pushed_lastEvents (points : Json) : ∀ x ∈ lastEvents points, x.1.Pushed := by
  rw [lastEvents, List.forall_mem_cons, List.forall_mem_singleton]
  exact ⟨⟨rfl, { sessionId := "s", pseudo := "ABC", createdAt := default }, _, _, rfl⟩,
    ⟨rfl, { sessionId := "s", pseudo := "ABC", createdAt := default }, _, _, rfl⟩⟩

theorem buildEventRows_tolerant_null :
    buildEventRows default ((lastEvents .null).map acceptedEntry) =
      .ok ((lastEvents .null).map acceptedRow) := by
  refine (buildEventRows_tolerant default _ (pushed_lastEvents .null)).mpr ?_
  rw [lastEvents, List.forall_mem_cons, List.forall_mem_singleton]
  constructor
  · rintro ⟨negative, hinf⟩
    cases hinf
  · rintro ⟨negative, hinf⟩
    cases hinf

/-- Infinite points at the end keep all the rows from being built. -/
theorem buildEventRows_infinite :
    (∀ x ∈ lastEvents (.float (.inf false)), x.1.Pushed) ∧
      buildEventRows default ((lastEvents (.float (.inf false))).map acceptedEntry) =
        .error .overflowError :=
  ⟨pushed_lastEvents _, rfl⟩

end FlipperBack
