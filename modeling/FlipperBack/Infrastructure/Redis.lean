import FlipperBack.Infrastructure.World
import FlipperBack.Python.JsonText

/-!
# The stores over one Redis

Redis is one keyspace of hashes and lists of strings, which the three stores
share: each has its prefix of the keys. `redisHandle` says what the commands do;
a command on a key that holds the other type fails, and no key expires here. The
stores are programs over these commands.
-/

namespace FlipperBack

open Effects Python

/-! ## The commands -/

inductive RedisValue
  | hash (data : Hash)
  | list (items : List String)
  deriving DecidableEq, Repr

abbrev Keyspace : Type := String → Option RedisValue

inductive RedisOp
  | hset (key : String) (mapping : Hash)
  | hgetall (key : String)
  | rpush (key value : String)
  /-- `LRANGE key 0 -1`. -/
  | lrange (key : String)
  | expire (key : String)
  | delete (key : String)
  deriving DecidableEq, Repr

@[reducible] def RedisOp.Res : RedisOp → Type
  | hgetall _ => Hash
  | lrange _ => List String
  | _ => Unit

namespace Hash

/-- Write one field. -/
def set (data : Hash) (field : String × String) : Hash :=
  if data.any (·.1 = field.1) then data.map fun f => if f.1 = field.1 then field else f
  else data ++ [field]

/-- `HSET`: the fields of the mapping are written over the others. -/
def merge (data mapping : Hash) : Hash :=
  mapping.foldl set data

end Hash

/-- What each command answers and does. -/
def redisHandle : Handler Exc RedisOp.Res Keyspace
  | .hset key mapping, ks =>
      match ks key with
      | none => (.ok (), Function.update ks key (some (.hash (Hash.merge [] mapping))))
      | some (.hash data) => (.ok (), Function.update ks key (some (.hash (data.merge mapping))))
      | some (.list _) => (.error .callFailed, ks)
  | .hgetall key, ks =>
      match ks key with
      | none => (.ok [], ks)
      | some (.hash data) => (.ok data, ks)
      | some (.list _) => (.error .callFailed, ks)
  | .rpush key value, ks =>
      match ks key with
      | none => (.ok (), Function.update ks key (some (.list [value])))
      | some (.list items) => (.ok (), Function.update ks key (some (.list (items ++ [value]))))
      | some (.hash _) => (.error .callFailed, ks)
  | .lrange key, ks =>
      match ks key with
      | none => (.ok [], ks)
      | some (.list items) => (.ok items, ks)
      | some (.hash _) => (.error .callFailed, ks)
  | .expire _, ks => (.ok (), ks)
  | .delete key, ks => (.ok (), Function.update ks key none)

/-- A program over Redis. -/
abbrev Commands (α : Type) : Type := Prog Exc RedisOp.Res α

/-- Await one command. -/
abbrev command (op : RedisOp) : Commands op.Res := Prog.perform op

/-! ## The stores -/

namespace RedisSessionStore

/-- `_session_key`. -/
def sessionKey (sessionId : String) : String :=
  "session:" ++ sessionId

/-- `RedisSessionStore.create`. -/
def create (session : Session) : Commands Unit := do
  let mapping ← Prog.ofExcept (liftPy session.toHash)
  command (.hset (sessionKey session.sessionId) mapping)
  command (.expire (sessionKey session.sessionId))

/-- `RedisSessionStore.get`. -/
def get (sessionId : String) : Commands (Option Session) := do
  let data ← command (.hgetall (sessionKey sessionId))
  if data.isEmpty then return none
  command (.expire (sessionKey sessionId))
  let session ← Prog.ofExcept (liftPy (Session.fromHash data))
  return some session

/-- `RedisSessionStore.update`. -/
def update (session : Session) : Commands Unit := do
  let mapping ← Prog.ofExcept (liftPy session.toHash)
  command (.hset (sessionKey session.sessionId) mapping)
  command (.expire (sessionKey session.sessionId))

/-- `RedisSessionStore.delete`. -/
def delete (sessionId : String) : Commands Unit :=
  command (.delete (sessionKey sessionId))

end RedisSessionStore

namespace RedisEventBuffer

/-- `_key`. -/
def key (sessionId : String) : String :=
  "events:" ++ sessionId

/-- `RedisEventBuffer.push`. -/
def push (sessionId : String) (event : Dict) : Commands Unit := do
  command (.rpush (key sessionId) (Json.obj event).dumps)
  command (.expire (key sessionId))

/-- `RedisEventBuffer.read_all`. -/
def readAll (sessionId : String) : Commands (List Json) := do
  let rawEvents ← command (.lrange (key sessionId))
  Prog.ofExcept (liftPy (rawEvents.mapM Json.loads))

/-- `RedisEventBuffer.clear`. -/
def clear (sessionId : String) : Commands Unit :=
  command (.delete (key sessionId))

end RedisEventBuffer

namespace RedisBorneStore

/-- `_borne_key`. -/
def borneKey (borneId : String) : String :=
  "borne:" ++ borneId

/-- `RedisBorneStore.update`. -/
def update (borne : Borne) : Commands Unit :=
  command (.hset (borneKey borne.borneId) borne.toHash)

/-- `RedisBorneStore.get_or_create`. -/
def getOrCreate (borneId : String) : Commands Borne := do
  let data ← command (.hgetall (borneKey borneId))
  if !data.isEmpty then Prog.ofExcept (liftPy (Borne.fromHash data))
  else
    update { borneId }
    return { borneId }

end RedisBorneStore

/-! ## The hashes and the keys -/

/-- The hash of a session is written over that of another one without a trace. -/
theorem Session.merge_fields (s s' : Session) : Hash.merge s.fields s'.fields = s'.fields := by
  simp [fields, Hash.merge, Hash.set]

theorem Session.merge_nil_fields (s : Session) : Hash.merge [] s.fields = s.fields := by
  simp [fields, Hash.merge, Hash.set]

theorem Borne.merge_toHash (b b' : Borne) : Hash.merge b.toHash b'.toHash = b'.toHash := by
  simp [toHash, Hash.merge, Hash.set]

theorem Borne.merge_nil_toHash (b : Borne) : Hash.merge [] b.toHash = b.toHash := by
  simp [toHash, Hash.merge, Hash.set]

namespace RedisSessionStore

theorem update_of_writable {s : Session} (h : s.writable) :
    update s = (command (.hset (sessionKey s.sessionId) s.fields) >>= fun _ =>
      command (.expire (sessionKey s.sessionId))) := by
  rw [update, Session.toHash_eq, if_pos h]
  rfl

end RedisSessionStore

theorem append_left_injective {before id id' : String} (h : before ++ id = before ++ id') :
    id = id' := by
  have hlist := congrArg String.toList h
  rw [String.toList_append, String.toList_append] at hlist
  exact String.toList_inj.mp (List.append_cancel_left hlist)

/-- Keys whose prefixes start with different letters differ. -/
theorem append_ne {before before' : String} (h : before.toList.head? ≠ before'.toList.head?)
    (hne : before ≠ "" ∧ before' ≠ "") (id id' : String) : before ++ id ≠ before' ++ id' := by
  intro heq
  have hhead := congrArg (fun s => s.toList.head?) heq
  simp only [String.toList_append] at hhead
  rw [List.head?_append_of_ne_nil _ (by simpa using hne.1),
    List.head?_append_of_ne_nil _ (by simpa using hne.2)] at hhead
  exact h hhead

namespace RedisSessionStore

@[simp] theorem sessionKey_inj {id id' : String} : sessionKey id = sessionKey id' ↔ id = id' :=
  ⟨append_left_injective, congrArg sessionKey⟩

@[simp] theorem sessionKey_ne_key (id id' : String) : sessionKey id ≠ RedisEventBuffer.key id' :=
  append_ne (by decide) (by decide) id id'

@[simp] theorem sessionKey_ne_borneKey (id id' : String) :
    sessionKey id ≠ RedisBorneStore.borneKey id' :=
  append_ne (by decide) (by decide) id id'

end RedisSessionStore

namespace RedisEventBuffer

@[simp] theorem key_inj {id id' : String} : key id = key id' ↔ id = id' :=
  ⟨append_left_injective, congrArg key⟩

@[simp] theorem key_ne_sessionKey (id id' : String) : key id ≠ RedisSessionStore.sessionKey id' :=
  append_ne (by decide) (by decide) id id'

@[simp] theorem key_ne_borneKey (id id' : String) : key id ≠ RedisBorneStore.borneKey id' :=
  append_ne (by decide) (by decide) id id'

end RedisEventBuffer

namespace RedisBorneStore

@[simp] theorem borneKey_inj {id id' : String} : borneKey id = borneKey id' ↔ id = id' :=
  ⟨append_left_injective, congrArg borneKey⟩

@[simp] theorem borneKey_ne_sessionKey (id id' : String) :
    borneKey id ≠ RedisSessionStore.sessionKey id' :=
  append_ne (by decide) (by decide) id id'

@[simp] theorem borneKey_ne_key (id id' : String) : borneKey id ≠ RedisEventBuffer.key id' :=
  append_ne (by decide) (by decide) id id'

end RedisBorneStore

end FlipperBack
