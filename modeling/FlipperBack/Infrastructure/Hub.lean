import FlipperBack.Effects.LiveList
import FlipperBack.Effects.Runs

/-!
# Hubs

`SessionHub`, `BorneHub` and `RoomHub` are one piece of code: a list of clients,
and a `broadcast` that goes over this very list and awaits a send to each client.
While a send is awaited other tasks run, which add clients to the list, remove
some or broadcast too. `ClientHub` has the list, the loops of the broadcasts in
progress, each with the position of its iterator, and the messages delivered; a
step is one call of `add_client` or `remove_client`, the start of a broadcast up
to its first send, or one more turn of a loop.
-/

namespace FlipperBack

open Effects

/-- The loop of a broadcast. -/
structure BroadcastLoop (Message : Type) where
  message : Message
  cursor : ℕ := 0
  finished : Bool := false

/-- A message delivered to a client by one of the broadcasts. -/
structure Delivery (Client Message : Type) where
  broadcast : ℕ
  client : Client
  message : Message

structure ClientHub (Client Message : Type) where
  clients : List Client := []
  loops : List (BroadcastLoop Message) := []
  deliveries : List (Delivery Client Message) := []

/-- What the event loop can do with a hub. -/
inductive HubStep (Client Message : Type)
  | add (client : Client)
  | remove (client : Client)
  | broadcast (message : Message)
  /-- The send that the broadcast awaits has ended. -/
  | resume (broadcast : ℕ)

namespace ClientHub

variable {Client Message : Type}

/-- `add_client`. -/
def addClient (hub : ClientHub Client Message) (client : Client) : ClientHub Client Message :=
  { hub with clients := hub.clients ++ [client] }

/-- `remove_client`. -/
def removeClient [DecidableEq Client] (hub : ClientHub Client Message) (client : Client) :
    ClientHub Client Message :=
  if client ∈ hub.clients then { hub with clients := hub.clients.erase client } else hub

/-- One turn of the loop of `broadcast`: a send to the client at the position of
the iterator, which may fail, or the end of the loop. -/
def turn (fails : ℕ → Client → Bool) (hub : ClientHub Client Message) (i : ℕ) :
    ClientHub Client Message :=
  match hub.loops[i]? with
  | none => hub
  | some loop =>
      if loop.finished then hub
      else
        match hub.clients[loop.cursor]? with
        | none => { hub with loops := hub.loops.set i { loop with finished := true } }
        | some client =>
            { hub with
              loops := hub.loops.set i { loop with cursor := loop.cursor + 1 }
              deliveries :=
                if fails i client then hub.deliveries
                else hub.deliveries ++ [{ broadcast := i, client, message := loop.message }] }

/-- A broadcast that has just been called. -/
def push (hub : ClientHub Client Message) (message : Message) : ClientHub Client Message :=
  { hub with loops := hub.loops ++ [{ message }] }

/-- `broadcast` up to its first send. -/
def broadcast (fails : ℕ → Client → Bool) (hub : ClientHub Client Message) (message : Message) :
    ClientHub Client Message :=
  turn fails (hub.push message) hub.loops.length

/-- The hub after a step; `fails` says which sends of which broadcast fail. -/
def step [DecidableEq Client] (fails : ℕ → Client → Bool) (hub : ClientHub Client Message) :
    HubStep Client Message → ClientHub Client Message
  | .add client => hub.addClient client
  | .remove client => hub.removeClient client
  | .broadcast message => hub.broadcast fails message
  | .resume i => hub.turn fails i

/-- The messages broadcast so far, in order. -/
def messages (hub : ClientHub Client Message) : List Message :=
  hub.loops.map BroadcastLoop.message

/-- What a client has received, in order. -/
def inbox [DecidableEq Client] (hub : ClientHub Client Message) (client : Client) : List Message :=
  (hub.deliveries.filter fun d => d.client = client).map Delivery.message

/-- How many times a broadcast has reached a client. -/
def reached [DecidableEq Client] (hub : ClientHub Client Message) (i : ℕ) (client : Client) : ℕ :=
  hub.deliveries.countP fun d => d.broadcast = i ∧ d.client = client

/-! ## Positions -/

/-- The iterator of a broadcast is past a client. -/
def Passed [DecidableEq Client] (hub : ClientHub Client Message) (i : ℕ) (client : Client) : Prop :=
  ∃ loop, hub.loops[i]? = some loop ∧ LiveList.Passed hub.clients loop.cursor client

/-- The next turn of a broadcast sends to a client. -/
def Visits (hub : ClientHub Client Message) (i : ℕ) (client : Client) : Prop :=
  ∃ loop, hub.loops[i]? = some loop ∧ loop.finished = false ∧
    hub.clients[loop.cursor]? = some client

/-- A client is about to be sent to by a broadcast and one before it in the list,
past which the broadcast is, is removed. -/
def Misses [DecidableEq Client] (hub : ClientHub Client Message) (i : ℕ) (client : Client) :
    HubStep Client Message → Prop
  | .remove gone => gone ∈ hub.clients ∧ hub.Passed i gone ∧ hub.Visits i client
  | _ => False

/-- Every broadcast that has started has ended. -/
def Quiet (hub : ClientHub Client Message) : Prop := ∀ loop ∈ hub.loops, loop.finished = true

/-- A websocket is added to its hub once. -/
def Fresh (hub : ClientHub Client Message) : HubStep Client Message → Prop
  | .add client => client ∉ hub.clients
  | _ => True

/-! ## One turn -/

section Turn

variable {fails : ℕ → Client → Bool} {hub : ClientHub Client Message} {i j : ℕ} {x : Client}

/-- A turn does nothing, ends the loop or sends to the client at its position. -/
theorem turn_cases (fails : ℕ → Client → Bool) (hub : ClientHub Client Message) (i : ℕ) :
    (hub.turn fails i = hub ∧ ∀ loop, hub.loops[i]? = some loop → loop.finished = true) ∨
      (∃ loop, hub.loops[i]? = some loop ∧ loop.finished = false ∧
        hub.clients[loop.cursor]? = none ∧
        hub.turn fails i = { hub with loops := hub.loops.set i { loop with finished := true } }) ∨
      ∃ loop client, hub.loops[i]? = some loop ∧ loop.finished = false ∧
        hub.clients[loop.cursor]? = some client ∧
        hub.turn fails i =
          { hub with
            loops := hub.loops.set i { loop with cursor := loop.cursor + 1 }
            deliveries :=
              if fails i client then hub.deliveries
              else hub.deliveries ++ [{ broadcast := i, client, message := loop.message }] } := by
  unfold turn
  cases hloop : hub.loops[i]? with
  | none => exact Or.inl ⟨rfl, fun loop h => by cases h⟩
  | some loop =>
      dsimp only
      cases hfinished : loop.finished with
      | true =>
          rw [if_pos rfl]
          exact Or.inl ⟨rfl, fun loop' h => Option.some.inj h ▸ hfinished⟩
      | false =>
          rw [if_neg Bool.false_ne_true]
          cases hclient : hub.clients[loop.cursor]? with
          | none => exact Or.inr (Or.inl ⟨loop, rfl, hfinished, hclient, rfl⟩)
          | some client =>
              exact Or.inr (Or.inr ⟨loop, client, rfl, hfinished, hclient, by rw [hfinished]⟩)

theorem set_loop {loops : List (BroadcastLoop Message)} {loop loop' : BroadcastLoop Message}
    (h : loops[i]? = some loop) : (loops.set i loop')[i]? = some loop' := by
  obtain ⟨hi, -⟩ := List.getElem?_eq_some_iff.mp h
  exact List.getElem?_set_self hi

theorem clients_turn : (hub.turn fails i).clients = hub.clients := by
  rcases turn_cases fails hub i with ⟨heq, -⟩ | ⟨loop, -, -, -, heq⟩ | ⟨loop, client, -, -, -, heq⟩
  · rw [heq]
  · rw [heq]
  · rw [heq]

/-- A turn passes the client that it sends to, for its own broadcast. -/
theorem passed_turn [DecidableEq Client] (hnodup : hub.clients.Nodup) (hx : x ∈ hub.clients) :
    (hub.turn fails i).Passed j x ↔ hub.Passed j x ∨ (j = i ∧ hub.Visits i x) := by
  unfold Passed
  rw [clients_turn]
  rcases turn_cases fails hub i with
    ⟨heq, hall⟩ | ⟨loop, hloop, hfinished, hclient, heq⟩ |
      ⟨loop, client, hloop, hfinished, hclient, heq⟩
  · rw [heq]
    refine (or_iff_left ?_).symm
    rintro ⟨-, loop, hloop, hfinished, -⟩
    rw [hall loop hloop] at hfinished
    cases hfinished
  · rw [heq]
    dsimp only
    have hnot : ¬ (j = i ∧ hub.Visits i x) := by
      rintro ⟨-, loop', hloop', -, hclient'⟩
      rw [Option.some.inj (hloop'.symm.trans hloop), hclient] at hclient'
      cases hclient'
    rw [or_iff_left hnot]
    by_cases hij : j = i
    · subst hij
      simp [set_loop hloop, hloop]
    · rw [List.getElem?_set_ne fun h => hij h.symm]
  · rw [heq]
    dsimp only
    by_cases hij : j = i
    · subst hij
      simp only [set_loop hloop, Option.some.injEq, exists_eq_left', true_and, hloop,
        LiveList.passed_succ hnodup hx, Visits, hfinished]
    · rw [List.getElem?_set_ne fun h => hij h.symm, or_iff_left fun h => hij h.1]

variable (fails hub i) in
/-- What a turn delivers is sent by it. -/
theorem deliveries_turn : ∃ sent, (hub.turn fails i).deliveries = hub.deliveries ++ sent ∧
    ∀ d ∈ sent, d.broadcast = i ∧ hub.Visits i d.client := by
  rcases turn_cases fails hub i with
    ⟨heq, -⟩ | ⟨loop, -, -, -, heq⟩ | ⟨loop, client, hloop, hfinished, hclient, heq⟩
  · exact ⟨[], by rw [heq, List.append_nil], by simp⟩
  · exact ⟨[], by rw [heq, List.append_nil], by simp⟩
  · rw [heq]
    dsimp only
    split
    · exact ⟨[], (List.append_nil _).symm, by simp⟩
    · refine ⟨_, rfl, fun d hd => ?_⟩
      obtain rfl := List.mem_singleton.mp hd
      exact ⟨rfl, loop, hloop, hfinished, hclient⟩

/-- What a turn delivers to the client that it sends to, where the send does not
fail. -/
theorem deliveries_turn_of_visits (h : hub.Visits i x) (hfails : fails i x = false) :
    ∃ loop, hub.loops[i]? = some loop ∧ (hub.turn fails i).deliveries =
      hub.deliveries ++ [{ broadcast := i, client := x, message := loop.message }] := by
  obtain ⟨loop, hloop, hfinished, hclient⟩ := h
  refine ⟨loop, hloop, ?_⟩
  unfold turn
  rw [hloop]
  dsimp only
  rw [hfinished, if_neg Bool.false_ne_true, hclient]
  dsimp only
  rw [hfails, if_neg Bool.false_ne_true]

theorem messages_turn : (hub.turn fails i).messages = hub.messages := by
  have hset {loop loop' : BroadcastLoop Message} (hloop : hub.loops[i]? = some loop)
      (hmessage : loop'.message = loop.message) :
      (hub.loops.set i loop').map BroadcastLoop.message =
        hub.loops.map BroadcastLoop.message := by
    rw [List.map_set, hmessage]
    obtain ⟨hi, rfl⟩ := List.getElem?_eq_some_iff.mp hloop
    exact List.ext_getElem? fun j => by
      by_cases hij : i = j
      · subst hij
        rw [List.getElem?_set_self (by simpa using hi)]
        simp [hi]
      · rw [List.getElem?_set_ne hij]
  rcases turn_cases fails hub i with ⟨heq, -⟩ | ⟨loop, hloop, -, -, heq⟩ | ⟨loop, _, hloop, -, -, heq⟩
  · rw [heq]
  · rw [heq]
    exact hset hloop rfl
  · rw [heq]
    exact hset hloop rfl

theorem visits_push (message : Message) :
    (hub.push message).Visits hub.loops.length x ↔ hub.clients[0]? = some x := by
  simp [Visits, push]

/-- A broadcast that has just been called has passed no client. -/
theorem passed_push [DecidableEq Client] (message : Message) :
    (hub.push message).Passed i x ↔ hub.Passed i x := by
  unfold Passed push
  rcases Nat.lt_trichotomy i hub.loops.length with hi | rfl | hi
  · simp only [List.getElem?_append_left hi]
  · simp [LiveList.not_passed_zero]
  · rw [List.getElem?_eq_none (by simp; omega), List.getElem?_eq_none (Nat.le_of_lt hi)]

end Turn

/-! ## Clients that come and go -/

section Clients

variable [DecidableEq Client] {hub : ClientHub Client Message} {i : ℕ} {x client : Client}

theorem passed_addClient (hx : x ∈ hub.clients) :
    (hub.addClient client).Passed i x ↔ hub.Passed i x := by
  unfold Passed addClient
  simp only [LiveList.passed_append hx]

/-- Taking a client away passes the one that a broadcast misses by it. -/
theorem passed_removeClient (hnodup : hub.clients.Nodup) (hx : x ∈ hub.clients)
    (hne : x ≠ client) : (hub.removeClient client).Passed i x ↔
      hub.Passed i x ∨ ∃ loop, hub.loops[i]? = some loop ∧ client ∈ hub.clients ∧
        LiveList.Passed hub.clients loop.cursor client ∧
          hub.clients[loop.cursor]? = some x := by
  unfold Passed removeClient
  by_cases hmem : client ∈ hub.clients
  · rw [if_pos hmem]
    simp only [LiveList.passed_erase hnodup hx hne, hmem, true_and]
    constructor
    · rintro ⟨loop, hloop, h | h⟩
      · exact Or.inl ⟨loop, hloop, h⟩
      · exact Or.inr ⟨loop, hloop, h⟩
    · rintro (⟨loop, hloop, h⟩ | ⟨loop, hloop, h⟩)
      · exact ⟨loop, hloop, Or.inl h⟩
      · exact ⟨loop, hloop, Or.inr h⟩
  · rw [if_neg hmem]
    simp [hmem]

end Clients

end ClientHub

end FlipperBack
