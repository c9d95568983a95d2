import FlipperBack.Transport.Serve

/-!
# The clients of the hubs

A socket is added to its hub before its snapshot and its frames are handled, and it is
removed from it by the `except WebSocketDisconnect` of its loop only. The hubs have no
other sockets than those that are being served as long as nothing else is raised after
the addition, and no longer (`clients_running_iff`).
-/

namespace FlipperBack

open Effects Python

/-- The coroutine is past the addition of its client. -/
def Serving.inside : Serving → Bool
  | snapshot _ => true
  | receiving => true
  | handling _ => true
  | _ => false

namespace Sockets

variable {σ : Type}

/-- The coroutine of the socket `i` is past its addition to the hub of the channel. -/
def inside (s : Sockets σ) (channel : Channel) (i : ℕ) : Bool :=
  match s.served[i]? with
  | some (channel', serving) => channel' = channel && serving.inside
  | none => false

/-- The clients of the hubs are sockets whose coroutine has not ended. -/
def OnlyRunning (s : Sockets σ) : Prop :=
  ∀ channel, ∀ i ∈ (s.hubs channel).clients,
    ∃ serving, s.served[i]? = some (channel, serving) ∧ serving.running

/-- The coroutine of the socket `i` is about to end with an exception that is not caught:
one of its snapshot, or one of the loop that is no `WebSocketDisconnect`. -/
def Uncaught (s : Sockets σ) (i : ℕ) : Prop :=
  (∃ channel e, s.served[i]? = some (channel, .snapshot (.raise e))) ∨
    ∃ channel e, s.served[i]? = some (channel, .handling (.raise (.exc e)))

/-- A hub has a socket once while its coroutine is past the addition, and not otherwise. -/
def Matched (s : Sockets σ) : Prop :=
  ∀ channel i, (s.hubs channel).clients.count i = if s.inside channel i then 1 else 0

variable {s : Sockets σ} {i : ℕ} {channel : Channel} {serving serving' : Serving}

/-! ## What changes where a coroutine is -/

theorem served_put (hserved : s.served[i]? = some (channel, serving)) (j : ℕ) :
    (s.put i channel serving').served[j]? =
      if j = i then some (channel, serving') else s.served[j]? := by
  obtain ⟨hi, -⟩ := List.getElem?_eq_some_iff.mp hserved
  by_cases hij : j = i
  · subst hij
    rw [if_pos rfl]
    exact List.getElem?_set_self hi
  · rw [if_neg hij]
    exact List.getElem?_set_ne fun h => hij h.symm

theorem inside_put (hserved : s.served[i]? = some (channel, serving)) (channel' : Channel) (j : ℕ) :
    (s.put i channel serving').inside channel' j =
      if j = i then (channel = channel' && serving'.inside) else s.inside channel' j := by
  unfold inside
  rw [served_put hserved]
  by_cases hij : j = i
  · rw [if_pos hij, if_pos hij]
  · rw [if_neg hij, if_neg hij]

theorem inside_of_served (hserved : s.served[i]? = some (channel, serving)) (channel' : Channel) :
    s.inside channel' i = (channel = channel' && serving.inside) := by
  rw [inside, hserved]

theorem Matched.onlyRunning (hs : s.Matched) : s.OnlyRunning := by
  intro channel i hi
  have hcount := List.count_pos_iff.mpr hi
  rw [hs] at hcount
  split at hcount
  · next hinside =>
      unfold inside at hinside
      split at hinside
      · next channel' serving hserved =>
          rw [Bool.and_eq_true, decide_eq_true_eq] at hinside
          obtain ⟨rfl, hinside⟩ := hinside
          refine ⟨serving, hserved, ?_⟩
          cases serving with
          | opening p => cases hinside
          | ended e => cases hinside
          | _ => rfl
      · cases hinside
  · exact absurd hcount (Nat.lt_irrefl 0)

/-- A coroutine that goes on on the same side of the addition. -/
theorem Matched.put (hs : s.Matched) (hserved : s.served[i]? = some (channel, serving))
    (hinside : serving'.inside = serving.inside) : (s.put i channel serving').Matched := by
  intro channel' j
  rw [inside_put hserved]
  refine (hs channel' j).trans ?_
  by_cases hij : j = i
  · subst hij
    rw [if_pos rfl, inside_of_served hserved, hinside]
  · rw [if_neg hij]

theorem Matched.answered {α : Type} (hs : s.Matched)
    (hserved : s.served[i]? = some (channel, serving)) (r : α × σ) {next : α → Serving}
    (hinside : (next r.1).inside = serving.inside) : (s.answered i channel r next).Matched :=
  hs.put hserved hinside

/-- A coroutine that goes on with another list of clients in its hub. -/
theorem Matched.move (hs : s.Matched) (hserved : s.served[i]? = some (channel, serving))
    {hub : ClientHub ℕ Dict}
    (hself : hub.clients.count i = if serving'.inside then 1 else 0)
    (hother : ∀ j, j ≠ i → hub.clients.count j = (s.hubs channel).clients.count j) :
    ({ s with hubs := Function.update s.hubs channel hub }.put i channel serving').Matched := by
  intro channel' j
  have hput (s' : Sockets σ) (hs' : s'.served[i]? = some (channel, serving)) :
      (s'.put i channel serving').inside channel' j =
        if j = i then (channel = channel' && serving'.inside) else s'.inside channel' j :=
    inside_put hs' channel' j
  rw [hput { s with hubs := Function.update s.hubs channel hub } hserved]
  change (Function.update s.hubs channel hub channel').clients.count j = _
  by_cases hchannel : channel' = channel
  · subst hchannel
    rw [Function.update_self]
    by_cases hij : j = i
    · subst hij
      rw [if_pos rfl, hself, decide_eq_true rfl, Bool.true_and]
    · rw [if_neg hij, hother j hij, hs]
      rfl
  · have hne : channel ≠ channel' := fun h => hchannel h.symm
    rw [Function.update_of_ne hchannel, hs]
    by_cases hij : j = i
    · subst hij
      rw [if_pos rfl, inside_of_served hserved, decide_eq_false hne, Bool.false_and,
        Bool.false_and]
    · rw [if_neg hij]
      rfl

theorem Matched.count_self (hs : s.Matched) (hserved : s.served[i]? = some (channel, serving)) :
    (s.hubs channel).clients.count i = if serving.inside then 1 else 0 := by
  rw [hs, inside_of_served hserved, decide_eq_true rfl, Bool.true_and]

theorem Matched.addClient (hs : s.Matched) (hserved : s.served[i]? = some (channel, serving))
    (hout : serving.inside = false) (hin : serving'.inside = true) :
    ((s.addClient i channel).put i channel serving').Matched := by
  refine hs.move hserved ?_ fun j hj => ?_
  · change ((s.hubs channel).clients ++ [i]).count i = _
    rw [List.count_append, hs.count_self hserved, hout, hin, List.count_singleton_self]
    rfl
  · change ((s.hubs channel).clients ++ [i]).count j = _
    rw [List.count_append, List.count_singleton, beq_false_of_ne hj.symm]
    rfl

theorem Matched.removeClient (hs : s.Matched) (hserved : s.served[i]? = some (channel, serving))
    (hin : serving.inside = true) (hout : serving'.inside = false) :
    ((s.removeClient i channel).put i channel serving').Matched := by
  have hcount := hs.count_self hserved
  rw [hin, if_pos rfl] at hcount
  have hmem : i ∈ (s.hubs channel).clients := List.count_pos_iff.mp (by omega)
  refine hs.move hserved ?_ fun j hj => ?_
  · rw [ClientHub.removeClient, if_pos hmem, List.count_erase_self, hcount, hout]
    rfl
  · rw [ClientHub.removeClient, if_pos hmem]
    exact List.count_erase_of_ne hj

/-- A client whose coroutine ends without taking it away. -/
theorem Matched.not_onlyRunning (hs : s.Matched)
    (hserved : s.served[i]? = some (channel, serving)) (hin : serving.inside = true)
    (hout : serving'.running = false) : ¬ (s.put i channel serving').OnlyRunning := by
  intro hrunning
  have hcount := hs.count_self hserved
  rw [hin, if_pos rfl] at hcount
  have hmem : i ∈ (s.hubs channel).clients := List.count_pos_iff.mp (by omega)
  obtain ⟨serving₁, hserved₁, hrunning₁⟩ := hrunning channel i hmem
  rw [served_put hserved, if_pos rfl] at hserved₁
  obtain rfl := (Prod.mk.inj (Option.some.inj hserved₁)).2
  rw [hout] at hrunning₁
  cases hrunning₁

/-! ## One step -/

section Step

variable {expectedBorneId : String} {h : Handler SocketExc SocketOp.Res σ} {a : ℕ × Draws}

theorem step_matched (hs : s.Matched) (ha : ¬ s.Uncaught a.1) :
    (s.step expectedBorneId h a).Matched := by
  unfold step
  cases hserved : s.served[a.1]? with
  | none => exact hs
  | some entry =>
      obtain ⟨channel, serving⟩ := entry
      dsimp only
      cases serving with
      | opening p =>
          cases p with
          | ret accepted =>
              cases accepted with
              | false => exact hs.put hserved rfl
              | true => exact hs.addClient hserved rfl rfl
          | raise e => exact hs.put hserved rfl
          | call op k => exact hs.answered hserved _ rfl
      | snapshot p =>
          cases p with
          | ret _ => exact hs.put hserved rfl
          | raise e => exact absurd (Or.inl ⟨channel, e, hserved⟩) ha
          | call op k => exact hs.answered hserved _ rfl
      | receiving => exact hs.answered hserved _ rfl
      | handling p =>
          cases p with
          | ret _ => exact hs.put hserved rfl
          | raise e =>
              cases e with
              | disconnect => exact hs.removeClient hserved rfl rfl
              | exc e => exact absurd (Or.inr ⟨channel, e, hserved⟩) ha
          | call op k => exact hs.answered hserved _ rfl
      | ended e => exact hs

/-- A coroutine that ends with an exception that is not caught leaves its client in the
hub. -/
theorem step_of_uncaught (hs : s.Matched) (ha : s.Uncaught a.1) :
    ¬ (s.step expectedBorneId h a).OnlyRunning := by
  rcases ha with ⟨channel, e, hserved⟩ | ⟨channel, e, hserved⟩
  · rw [step, hserved]
    exact hs.not_onlyRunning hserved rfl rfl
  · rw [step, hserved]
    exact hs.not_onlyRunning hserved rfl rfl

end Step

theorem connected_matched (expectedBorneId : String) (channels : List Channel) (rest : σ) :
    (connected expectedBorneId channels rest).Matched := by
  intro channel i
  rw [if_neg]
  · rfl
  · unfold inside connected
    rw [List.getElem?_map]
    cases channels[i]? with
    | none => exact Bool.false_ne_true
    | some channel' =>
        rw [Option.map_some]
        dsimp only [Serving.inside]
        rw [Bool.and_false]
        exact Bool.false_ne_true

/-- In every run of the coroutines of any sockets the hubs have no other clients than
sockets whose coroutine has not ended, after every step, exactly when no coroutine ends
with an exception of its snapshot or with one of its loop that is no
`WebSocketDisconnect`. -/
theorem clients_running_iff (expectedBorneId : String) (h : Handler SocketExc SocketOp.Res σ)
    (channels : List Channel) (rest : σ) (as : List (ℕ × Draws)) :
    Runs.Along (step expectedBorneId h) (fun s a => (s.step expectedBorneId h a).OnlyRunning)
        (connected expectedBorneId channels rest) as ↔
      Runs.Along (step expectedBorneId h) (fun s a => ¬ s.Uncaught a.1)
        (connected expectedBorneId channels rest) as := by
  have hcaught (s : Sockets σ) (a : ℕ × Draws) (hs : s.Matched)
      (hrunning : (s.step expectedBorneId h a).OnlyRunning) : ¬ s.Uncaught a.1 :=
    fun ha => step_of_uncaught hs ha hrunning
  have hstart := connected_matched expectedBorneId channels rest
  constructor
  · exact Runs.Along.imp (fun s a hs hrunning => step_matched hs (hcaught s a hs hrunning))
      hcaught hstart
  · exact Runs.Along.imp (fun _ _ hs ha => step_matched hs ha)
      (fun _ _ hs ha => (step_matched hs ha).onlyRunning) hstart

/-- The calls over a world, for clients that all send `frame`. -/
def sending (ctx : Context) (frame : String) : Handler SocketExc SocketOp.Res World
  | .app op, w => (.ok (handle ctx op w).1, (handle ctx op w).2)
  | .roomByCode _, w => (.ok none, w)
  | .receiveText, w => (.ok frame, w)
  | .accept, w => (.ok (), w)
  | .close, w => (.ok (), w)
  | .sendNavState _ _, w => (.ok (), w)
  | .dependencies, w => (.ok (), w)

/-- A relay whose event has a list for its type raises a `TypeError`, which the loop lets
through: the socket stays in the hub of its borne after its coroutine has ended. -/
theorem unhashable_relay_stays :
    let draws : Draws :=
      { loads := fun _ => .ok (.obj [("type", .str "borne:relay"),
          ("event", .obj [("type", .arr [])])]) }
    let h := sending {} "\x7b\"type\": \"borne:relay\", \"event\": \x7b\"type\": []\x7d\x7d"
    let s := (List.replicate 8 (0, draws)).foldl (step "b" h) (connected "b" [.borne "b"] {})
    (s.hubs (.borne "b")).clients = [0] ∧ ¬ s.OnlyRunning := by
  intro draws h s
  have hclients : (s.hubs (.borne "b")).clients = [0] := by decide +kernel
  have hended : s.served[0]?.map (fun entry => entry.2.running) = some false := by decide +kernel
  refine ⟨hclients, fun hs => ?_⟩
  obtain ⟨serving, hserved, hrunning⟩ := hs (.borne "b") 0 (hclients ▸ List.mem_cons_self)
  rw [hserved, Option.map_some, hrunning] at hended
  cases hended

end Sockets

end FlipperBack
