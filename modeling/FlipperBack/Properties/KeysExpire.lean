import FlipperBack.System.RedisExecutions

/-!
# Every session and every buffer expires

A write of a session or of a buffer and the `EXPIRE` of its key are two commands. However
the executions take turns between their commands, and whenever Redis drops a key that is
due, a key that is not a borne's has an expiration, or some execution is about to set it
(`keys_expire`); and a borne never gets one.
-/

namespace FlipperBack

open Effects Python

/-! ## Redis with expirations -/

/-- Redis, the keys that have an expiration, and the world behind the other ports. -/
structure ExpiringRedis where
  redis : Keyspace
  expires : String → Bool
  world : World

/-- `EXPIRE` on a key that is there, and what is left of it where the key is deleted; a
write keeps it. -/
def RedisOp.expiresAfter (op : RedisOp) (ks : Keyspace) (expires : String → Bool) :
    String → Bool :=
  match op with
  | expire key => if (ks key).isSome then Function.update expires key true else expires
  | delete key => Function.update expires key false
  | _ => expires

def expiringHandle (ctx : Context) : Handler Exc WireOp.Res ExpiringRedis
  | .redis op, v =>
      ((redisHandle op v.redis).1,
        { v with
          redis := (redisHandle op v.redis).2
          expires := op.expiresAfter v.redis v.expires })
  | .port op, v => ((handle ctx op v.world).1, { v with world := (handle ctx op v.world).2 })

/-- An execution takes its turn, or Redis drops a key. -/
inductive RedisTurn
  | run (i : ℕ)
  | drop (key : String)

/-- Redis drops a key that has an expiration. -/
def ExpiringRedis.drop (v : ExpiringRedis) (key : String) : ExpiringRedis :=
  if v.expires key then
    { v with
      redis := Function.update v.redis key none
      expires := Function.update v.expires key false }
  else v

abbrev ExpiringExecutions : Type := Pool Exc WireOp.Res Context ExpiringRedis

def ExpiringExecutions.turn (pool : ExpiringExecutions) : RedisTurn → ExpiringExecutions
  | .run i => Pool.step expiringHandle pool i
  | .drop key => { pool with state := pool.state.drop key }

/-- Jobs that have not made a command yet. -/
def expiringExecutions (borneId : String) (v : ExpiringRedis) (jobs : List Job) :
    ExpiringExecutions :=
  { state := v
    threads := (executions borneId v.world jobs).threads.map fun t =>
      (t.1, t.2.expand Op.commands) }

/-! ## What each execution owes -/

def isBorneKey (key : String) : Bool :=
  "borne:".toList.isPrefixOf key.toList

@[simp] theorem isBorneKey_borneKey (id : String) :
    isBorneKey (RedisBorneStore.borneKey id) = true := by
  rw [isBorneKey, RedisBorneStore.borneKey, String.toList_append, List.isPrefixOf_iff_prefix]
  exact List.prefix_append _ _

@[simp] theorem isBorneKey_sessionKey (id : String) :
    isBorneKey (RedisSessionStore.sessionKey id) = false := by
  rw [isBorneKey, RedisSessionStore.sessionKey, String.toList_append]
  rfl

@[simp] theorem isBorneKey_key (id : String) : isBorneKey (RedisEventBuffer.key id) = false := by
  rw [isBorneKey, RedisEventBuffer.key, String.toList_append]
  rfl

/-- Only the hash of a borne is written without an expiration, and it is not deleted. -/
def WireOp.Plain : WireOp → Prop
  | redis (.rpush key _) => isBorneKey key = false
  | redis (.expire key) => isBorneKey key = false
  | redis (.delete key) => isBorneKey key = false
  | _ => True

/-- The key that has been written where a command has answered, unless it is a borne's. -/
def WireOp.owes : (op : WireOp) → Except Exc op.Res → Option String
  | redis (.hset key _), .ok _ => if isBorneKey key then none else some key
  | redis (.rpush key _), .ok _ => some key
  | _, _ => none

/-- An execution that has written a key sets its expiration next. -/
def expiring : Protocol Exc WireOp.Res (Option String) where
  allowed
    | none, op => op.Plain
    | some key, op => op = .redis (.expire key) ∧ isBorneKey key = false
  answers _ _ := True
  next _ op r q := q = op.owes r

/-- A key is written, then its expiration is set. -/
theorem expiring_write {op : RedisOp} {key : String} (hplain : WireOp.Plain (.redis op))
    (howes : ∀ a, WireOp.owes (.redis op) (.ok a) = some key)
    (herror : ∀ e, WireOp.owes (.redis op) (.error e) = none) (hkey : isBorneKey key = false) :
    Prog.Rests expiring none (onWire (command op >>= fun _ => command (.expire key))) := by
  refine ⟨hplain, fun r _ => ?_⟩
  cases r with
  | error e => exact ⟨none, (herror e).symm, rfl⟩
  | ok a =>
      refine ⟨some key, (howes a).symm, ⟨rfl, hkey⟩, fun r _ => ⟨none, rfl, ?_⟩⟩
      cases r <;> rfl

/-- A command that writes no key but a borne's. -/
def RedisOp.Settles (op : RedisOp) : Prop :=
  WireOp.Plain (.redis op) ∧ ∀ r, WireOp.owes (.redis op) r = none

theorem expiring_settles {α : Type} {p : Commands α} (hp : p.All RedisOp.Settles) :
    Prog.Rests expiring none (onWire p) :=
  .of_all (C := fun op => ∃ c : RedisOp, op = .redis c ∧ c.Settles)
    (fun op hop => by
      obtain ⟨c, rfl, hplain, howes⟩ := hop
      exact ⟨hplain, fun r _ => (howes r).symm⟩)
    (hp.embed fun c hc => ⟨c, rfl, hc⟩)

theorem settles_borneUpdate (b : Borne) :
    (RedisBorneStore.update b).All RedisOp.Settles :=
  (Prog.all_perform _ _).mpr ⟨trivial, fun r => by
    cases r with
    | error e => rfl
    | ok a => exact if_pos (isBorneKey_borneKey b.borneId)⟩

theorem settles_getOrCreate (borneId : String) :
    (RedisBorneStore.getOrCreate borneId).All RedisOp.Settles := by
  refine .bind ((Prog.all_perform _ _).mpr ⟨trivial, fun r => by cases r <;> rfl⟩) fun data => ?_
  split
  · exact Prog.all_ofExcept _ _
  · exact .bind (settles_borneUpdate _) fun _ => trivial

theorem settles_get (sessionId : String) : (RedisSessionStore.get sessionId).All RedisOp.Settles := by
  refine .bind ((Prog.all_perform _ _).mpr ⟨trivial, fun r => by cases r <;> rfl⟩) fun data => ?_
  split
  · trivial
  · refine .bind ((Prog.all_perform _ _).mpr
      ⟨isBorneKey_sessionKey sessionId, fun r => by cases r <;> rfl⟩) fun _ => ?_
    exact .bind (Prog.all_ofExcept _ _) fun _ => trivial

theorem settles_delete {key : String} (hkey : isBorneKey key = false) :
    (command (.delete key)).All RedisOp.Settles :=
  (Prog.all_perform _ _).mpr ⟨hkey, fun r => by cases r <;> rfl⟩

theorem settles_readAll (sessionId : String) :
    (RedisEventBuffer.readAll sessionId).All RedisOp.Settles :=
  .bind ((Prog.all_perform _ _).mpr ⟨trivial, fun r => by cases r <;> rfl⟩) fun _ =>
    Prog.all_ofExcept _ _

theorem expiring_commands (op : Op) : Prog.Rests expiring none op.commands := by
  have hwrite {s : Session} (h : s.writable) :
      Prog.Rests expiring none (onWire (RedisSessionStore.update s)) := by
    rw [RedisSessionStore.update_of_writable h]
    exact expiring_write trivial (fun _ => if_neg (by simp)) (fun _ => rfl) (by simp)
  cases op with
  | sessionCreate s =>
      dsimp only [Op.commands]
      split
      · exact hwrite ‹_›
      · exact Prog.Rests.perform ⟨trivial, fun _ _ => rfl⟩
  | sessionUpdate s =>
      dsimp only [Op.commands]
      split
      · exact hwrite ‹_›
      · exact Prog.Rests.perform ⟨trivial, fun _ _ => rfl⟩
  | sessionGet sessionId => exact expiring_settles (settles_get sessionId)
  | sessionDelete sessionId => exact expiring_settles (settles_delete (by simp))
  | bufferPush sessionId event =>
      exact expiring_write (isBorneKey_key sessionId) (fun _ => rfl) (fun _ => rfl) (by simp)
  | bufferReadAll sessionId =>
      exact .bind (expiring_settles (settles_readAll sessionId)) fun _ => .pure _
  | bufferClear sessionId => exact expiring_settles (settles_delete (by simp))
  | borneGetOrCreate borneId => exact expiring_settles (settles_getOrCreate borneId)
  | borneUpdate b => exact expiring_settles (settles_borneUpdate b)
  | _ => exact Prog.Rests.perform ⟨trivial, fun _ _ => rfl⟩

/-- An execution sets the expiration of each key that it writes. -/
theorem expiring_expand {α : Type} (p : UseCase α) :
    Prog.Rests expiring none (p.expand Op.commands) := by
  induction p with
  | ret a => rfl
  | raise e => rfl
  | call op k ih => exact .bind (.attempt (expiring_commands op)) ih

/-! ## What the commands do to a key -/

/-- The key of a command. -/
def RedisOp.key : RedisOp → String
  | hset key _ => key
  | hgetall key => key
  | rpush key _ => key
  | lrange key => key
  | expire key => key
  | delete key => key

section Keys

variable {op : RedisOp} {ks : Keyspace} {key : String}

theorem redisHandle_of_ne (hkey : key ≠ op.key) : (redisHandle op ks).2 key = ks key := by
  cases op with
  | hset key' mapping =>
      unfold redisHandle
      dsimp only
      split
      · exact Function.update_of_ne hkey ..
      · exact Function.update_of_ne hkey ..
      · rfl
  | rpush key' value =>
      unfold redisHandle
      dsimp only
      split
      · exact Function.update_of_ne hkey ..
      · exact Function.update_of_ne hkey ..
      · rfl
  | delete key' => exact Function.update_of_ne hkey ..
  | hgetall key' =>
      unfold redisHandle
      dsimp only
      split <;> rfl
  | lrange key' =>
      unfold redisHandle
      dsimp only
      split <;> rfl
  | expire key' => rfl

/-- A key that a command writes is owed its expiration, unless it is a borne's. -/
theorem owes_of_written (hnone : ks key = none) (hwritten : (redisHandle op ks).2 key ≠ none) :
    isBorneKey key = true ∨ WireOp.owes (.redis op) (redisHandle op ks).1 = some key := by
  have hkey : key = op.key := by
    by_contra hne
    exact hwritten ((redisHandle_of_ne hne).trans hnone)
  cases op with
  | hset key' mapping =>
      obtain rfl : key = key' := hkey
      have hok : (redisHandle (.hset key mapping) ks).1 = .ok () := by
        unfold redisHandle
        dsimp only
        rw [hnone]
      rw [hok]
      cases hborne : isBorneKey key with
      | true => exact Or.inl rfl
      | false => exact Or.inr (if_neg (by simp [hborne]))
  | rpush key' value =>
      obtain rfl : key = key' := hkey
      have hok : (redisHandle (.rpush key value) ks).1 = .ok () := by
        unfold redisHandle
        dsimp only
        rw [hnone]
      rw [hok]
      exact Or.inr rfl
  | delete key' =>
      obtain rfl : key = key' := hkey
      exact absurd (Function.update_self ..) hwritten
  | expire key' => exact absurd hnone hwritten
  | hgetall key' =>
      obtain rfl : key = key' := hkey
      unfold redisHandle at hwritten
      dsimp only at hwritten
      rw [hnone] at hwritten
      exact absurd hnone hwritten
  | lrange key' =>
      obtain rfl : key = key' := hkey
      unfold redisHandle at hwritten
      dsimp only at hwritten
      rw [hnone] at hwritten
      exact absurd hnone hwritten

/-- An expiration is lost with its key only. -/
theorem expiresAfter_of_expires {expires : String → Bool} (hexpires : expires key = true)
    (hkey : (redisHandle op ks).2 key ≠ none) : op.expiresAfter ks expires key = true := by
  cases op with
  | expire key' =>
      unfold RedisOp.expiresAfter
      dsimp only
      split
      · by_cases heq : key = key'
        · rw [heq, Function.update_self]
        · rw [Function.update_of_ne heq, hexpires]
      · exact hexpires
  | delete key' =>
      have hne : key ≠ key' := by
        rintro rfl
        exact hkey (Function.update_self ..)
      exact (Function.update_of_ne hne ..).trans hexpires
  | _ => exact hexpires

theorem expiresAfter_of_not {expires : String → Bool} (hplain : WireOp.Plain (.redis op))
    (hborne : isBorneKey key = true) (hexpires : expires key = false) :
    op.expiresAfter ks expires key = false := by
  cases op with
  | expire key' =>
      have hne : key ≠ key' := by
        rintro rfl
        cases hborne.symm.trans hplain
      unfold RedisOp.expiresAfter
      dsimp only
      split
      · rw [Function.update_of_ne hne, hexpires]
      · exact hexpires
  | delete key' =>
      unfold RedisOp.expiresAfter
      dsimp only
      by_cases heq : key = key'
      · rw [heq, Function.update_self]
      · rw [Function.update_of_ne heq, hexpires]
  | _ => exact hexpires

theorem borne_of_plain (hplain : WireOp.Plain (.redis op)) (hborne : isBorneKey key = true)
    (hkey : ks key ≠ none) : (redisHandle op ks).2 key ≠ none := by
  by_cases hne : key = op.key
  · cases op with
    | delete key' =>
        obtain rfl : key = key' := hne
        cases hborne.symm.trans hplain
    | hset key' mapping =>
        obtain rfl : key = key' := hne
        unfold redisHandle
        dsimp only
        split <;> simp [hkey]
    | rpush key' value =>
        obtain rfl : key = key' := hne
        unfold redisHandle
        dsimp only
        split <;> simp [hkey]
    | hgetall key' =>
        unfold redisHandle
        dsimp only
        split <;> exact hkey
    | lrange key' =>
        unfold redisHandle
        dsimp only
        split <;> exact hkey
    | expire key' => exact hkey
  · rwa [redisHandle_of_ne hne]

end Keys

/-! ## What the executions owe Redis -/

/-- A key of Redis that is not a borne's has an expiration, or some execution is about to
set it; the key of a borne has none, and is there once it was in `ks₀`. -/
structure ExpiringRedis.Owed (n : ℕ) (ks₀ : Keyspace) (v : ExpiringRedis)
    (phase : ℕ → Option String) : Prop where
  keys : ∀ key, v.redis key ≠ none → v.expires key = true ∨ isBorneKey key = true ∨
    ∃ i, phase i = some key
  bornes : ∀ key, isBorneKey key = true → v.expires key = false
  kept : ∀ key, isBorneKey key = true → ks₀ key ≠ none → v.redis key ≠ none
  phases : ∀ i, phase i ≠ none → i < n

namespace ExpiringRedis.Owed

variable {n : ℕ} {ks₀ : Keyspace} {v : ExpiringRedis} {phase : ℕ → Option String}

theorem drop (h : v.Owed n ks₀ phase) (key : String) : (v.drop key).Owed n ks₀ phase := by
  unfold ExpiringRedis.drop
  split
  · next hexpires =>
      refine ⟨fun key' hkey' => ?_, fun key' hborne => ?_, fun key' hborne hkey' => ?_, h.phases⟩
      · have hne : key' ≠ key := by
          rintro rfl
          exact hkey' (Function.update_self ..)
        dsimp only at hkey' ⊢
        rw [Function.update_of_ne hne] at hkey' ⊢
        exact h.keys key' hkey'
      · have hne : key' ≠ key := by
          rintro rfl
          cases hexpires.symm.trans (h.bornes key' hborne)
        exact (Function.update_of_ne hne ..).trans (h.bornes key' hborne)
      · have hne : key' ≠ key := by
          rintro rfl
          cases hexpires.symm.trans (h.bornes key' hborne)
        dsimp only
        rw [Function.update_of_ne hne]
        exact h.kept key' hborne hkey'
  · exact h

theorem handle (h : v.Owed n ks₀ phase) (ctx : Context) {op : WireOp} {i : ℕ} (hi : i < n)
    (hallowed : expiring.allowed (phase i) op) :
    (expiringHandle ctx op v).2.Owed n ks₀
      (Function.update phase i (op.owes (expiringHandle ctx op v).1)) := by
  have hplain : op.Plain := by
    cases hphase : phase i with
    | none =>
        rw [hphase] at hallowed
        exact hallowed
    | some key =>
        rw [hphase] at hallowed
        obtain ⟨rfl, hkey⟩ := hallowed
        exact hkey
  have hphases (q : Option String) : ∀ j, Function.update phase i q j ≠ none → j < n := by
    intro j hj
    by_cases hij : j = i
    · exact hij ▸ hi
    · rw [Function.update_of_ne hij] at hj
      exact h.phases j hj
  -- What is owed by the others stays owed, and `i` pays its own debt.
  have hdebt {key : String} (hkey : v.redis key ≠ none) (q : Option String) :
      v.expires key = true ∨ isBorneKey key = true ∨
        (∃ j, Function.update phase i q j = some key) ∨ op = .redis (.expire key) := by
    rcases h.keys key hkey with hexpires | hborne | ⟨j, hj⟩
    · exact Or.inl hexpires
    · exact Or.inr (Or.inl hborne)
    · by_cases hij : j = i
      · subst hij
        rw [hj] at hallowed
        exact Or.inr (Or.inr (Or.inr hallowed.1))
      · exact Or.inr (Or.inr (Or.inl ⟨j, by rw [Function.update_of_ne hij, hj]⟩))
  cases op with
  | port op =>
      refine ⟨fun key hkey => ?_, h.bornes, h.kept, hphases _⟩
      rcases hdebt hkey _ with hexpires | hborne | howed | heq
      · exact Or.inl hexpires
      · exact Or.inr (Or.inl hborne)
      · exact Or.inr (Or.inr howed)
      · cases heq
  | redis op =>
      refine ⟨fun key hkey => ?_, fun key hborne => ?_, fun key hborne hkey => ?_, hphases _⟩
      · by_cases hnone : v.redis key = none
        · rcases owes_of_written hnone hkey with hborne | howes
          · exact Or.inr (Or.inl hborne)
          · exact Or.inr (Or.inr ⟨i, (Function.update_self ..).trans howes⟩)
        · rcases hdebt hnone _ with hexpires | hborne | howed | heq
          · exact Or.inl (expiresAfter_of_expires hexpires hkey)
          · exact Or.inr (Or.inl hborne)
          · exact Or.inr (Or.inr howed)
          · obtain rfl : op = .expire key := WireOp.redis.inj heq
            refine Or.inl ?_
            change (if (v.redis key).isSome then Function.update v.expires key true
              else v.expires) key = true
            rw [if_pos (Option.isSome_iff_ne_none.mpr hnone), Function.update_self]
      · exact expiresAfter_of_not hplain hborne (h.bornes key hborne)
      · exact borne_of_plain hplain hborne (h.kept key hborne hkey)

end ExpiringRedis.Owed

/-! ## Every schedule -/

namespace ExpiringExecutions

/-- The executions keep to what they owe, and Redis is owed no more than that. -/
def Sound (n : ℕ) (ks₀ : Keyspace) (pool : ExpiringExecutions) : Prop :=
  pool.threads.length = n ∧ ∃ phase, pool.Follow expiring (· = none) phase ∧
    pool.state.Owed n ks₀ phase

theorem Sound.turn {n : ℕ} {ks₀ : Keyspace} {pool : ExpiringExecutions} (h : Sound n ks₀ pool)
    (turn : RedisTurn) : Sound n ks₀ (pool.turn turn) := by
  obtain ⟨hlength, phase, hfollow, howed⟩ := h
  cases turn with
  | drop key => exact ⟨hlength, phase, hfollow, howed.drop key⟩
  | run i =>
      rcases Pool.step_follows hfollow (fun _ _ _ => trivial) i with
        heq | ⟨c, op, k, q, hthread, hallowed, rfl, hstate, hfollow'⟩
      · change Sound n ks₀ (Pool.step expiringHandle pool i)
        rw [heq]
        exact ⟨hlength, phase, hfollow, howed⟩
      · obtain ⟨hi, -⟩ := List.getElem?_eq_some_iff.mp hthread
        refine ⟨?_, _, hfollow', ?_⟩
        · change (Pool.step expiringHandle pool i).threads.length = n
          rw [Pool.step_of_thread hthread, List.length_set, hlength]
        · change ExpiringRedis.Owed n ks₀ (Pool.step expiringHandle pool i).state _
          rw [hstate]
          exact howed.handle c (hlength ▸ hi) hallowed

theorem Sound.start {borneId : String} {v : ExpiringRedis}
    (hkeys : ∀ key, v.redis key ≠ none → v.expires key = true ∨ isBorneKey key = true)
    (hbornes : ∀ key, isBorneKey key = true → v.expires key = false) (jobs : List Job) :
    Sound (expiringExecutions borneId v jobs).threads.length v.redis
      (expiringExecutions borneId v jobs) := by
  refine ⟨rfl, fun _ => none, fun i c p hthread => ?_, ?_⟩
  · rw [expiringExecutions, List.getElem?_map, Option.map_eq_some_iff] at hthread
    obtain ⟨t, -, ht⟩ := hthread
    obtain ⟨-, rfl⟩ := Prod.mk.inj ht
    exact (expiring_expand t.2).follows rfl rfl
  · exact
      { keys := fun key hkey => (hkeys key hkey).imp id Or.inl
        bornes := hbornes
        kept := fun _ _ hkey => hkey
        phases := fun i hi => absurd rfl hi }

/-- An execution that owes an expiration is about to set it. -/
theorem next_of_owed {pool : ExpiringExecutions} {phase : ℕ → Option String}
    (hfollow : pool.Follow expiring (· = none) phase) {i : ℕ} (hi : i < pool.threads.length) {key : String} (hphase : phase i = some key) :
    pool.next i = some (.redis (.expire key)) := by
  obtain ⟨⟨c, p⟩, hthread⟩ : ∃ t, pool.threads[i]? = some t := ⟨_, List.getElem?_eq_getElem hi⟩
  have hp := hfollow i c p hthread
  rw [hphase] at hp
  unfold Pool.next
  rw [hthread, Option.bind_some]
  cases p with
  | ret a => cases hp
  | raise e => cases hp
  | call op k => exact congrArg some hp.1.1

end ExpiringExecutions

/-- Whatever the executions and however they take turns with each other and with the
expirations of Redis: a key that is not a borne's has an expiration, or some execution is
about to set it; the key of a borne has none, and is not dropped. -/
theorem keys_expire {borneId : String} {v : ExpiringRedis}
    (hkeys : ∀ key, v.redis key ≠ none → v.expires key = true ∨ isBorneKey key = true)
    (hbornes : ∀ key, isBorneKey key = true → v.expires key = false) (jobs : List Job)
    (turns : List RedisTurn) :
    let pool := turns.foldl ExpiringExecutions.turn (expiringExecutions borneId v jobs)
    (∀ key, pool.state.redis key ≠ none → pool.state.expires key = true ∨
      isBorneKey key = true ∨ ∃ i, pool.next i = some (.redis (.expire key))) ∧
    ∀ key, isBorneKey key = true → pool.state.expires key = false ∧
      (v.redis key ≠ none → pool.state.redis key ≠ none) := by
  intro pool
  have hsound := Runs.invariant (C := fun _ _ => True)
    (fun (_ : ExpiringExecutions) (turn : RedisTurn) h _ => h.turn turn)
    (s := expiringExecutions borneId v jobs)
    (ExpiringExecutions.Sound.start hkeys hbornes jobs)
    (Runs.along_of_forall (fun _ _ => trivial) _ turns)
  obtain ⟨hlength, phase, hfollow, howed⟩ := hsound
  refine ⟨fun key hkey => ?_, fun key hborne => ⟨howed.bornes key hborne, howed.kept key hborne⟩⟩
  rcases howed.keys key hkey with hexpires | hborne | ⟨i, hi⟩
  · exact Or.inl hexpires
  · exact Or.inr (Or.inl hborne)
  · have hlt := howed.phases i (by rw [hi]; exact Option.some_ne_none key)
    exact Or.inr (Or.inr ⟨i, ExpiringExecutions.next_of_owed hfollow (hlength ▸ hlt) hi⟩)

/-- Redis drops a session between a pause's read and its write, which puts it back without an
expiration. -/
theorem keys_expire_droppedPause :
    let playing : Session :=
      { sessionId := "s", pseudo := "ABC", status := .playing, createdAt := default }
    let v : ExpiringRedis :=
      { redis := Function.update (fun _ => none) (RedisSessionStore.sessionKey "s")
          (some (.hash playing.fields))
        expires := Function.update (fun _ => false) (RedisSessionStore.sessionKey "s") true
        world := {} }
    let pool := [.run 0, .run 0, .drop (RedisSessionStore.sessionKey "s"), .run 0].foldl
      ExpiringExecutions.turn
      (expiringExecutions "b" v [.request { request := .sessionCommand [] .pause "s" }])
    pool.state.redis (RedisSessionStore.sessionKey "s") ≠ none ∧
      pool.state.expires (RedisSessionStore.sessionKey "s") = false ∧
      ∃ i, pool.next i = some (.redis (.expire (RedisSessionStore.sessionKey "s"))) := by
  intro playing v pool
  have hthere : pool.state.redis (RedisSessionStore.sessionKey "s") ≠ none := by
    decide +kernel
  have hexpires : pool.state.expires (RedisSessionStore.sessionKey "s") = false := by
    decide +kernel
  have hkeys (key : String) (hkey : v.redis key ≠ none) :
      v.expires key = true ∨ isBorneKey key = true := by
    dsimp only [v] at hkey ⊢
    by_cases heq : key = RedisSessionStore.sessionKey "s"
    · subst heq
      exact Or.inl (Function.update_self ..)
    · exact absurd (Function.update_of_ne heq ..) hkey
  have hbornes (key : String) (hborne : isBorneKey key = true) : v.expires key = false := by
    have hne : key ≠ RedisSessionStore.sessionKey "s" := by
      rintro rfl
      exact Bool.false_ne_true (isBorneKey_sessionKey "s" ▸ hborne)
    dsimp only [v]
    exact Function.update_of_ne hne ..
  have hpool := @keys_expire "b" v hkeys hbornes
    [.request { request := .sessionCommand [] .pause "s" }]
    [.run 0, .run 0, .drop (RedisSessionStore.sessionKey "s"), .run 0]
  rcases hpool.1 _ hthere with htrue | hborne | hnext
  · exact absurd (hexpires.symm.trans htrue) Bool.false_ne_true
  · exact absurd ((isBorneKey_sessionKey "s").symm.trans hborne) Bool.false_ne_true
  · exact ⟨hthere, hexpires, hnext⟩

end FlipperBack
