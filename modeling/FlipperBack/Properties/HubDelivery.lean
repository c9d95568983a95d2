import FlipperBack.Infrastructure.Hub

/-!
# Who receives a broadcast

A client that stays in the list of its hub is passed by each broadcast once, by
a turn that sends to it or by the removal of a client before it: in the second
case it is never sent to (`passed_step`). So every client that stays and can be
sent to receives a broadcast exactly once where no such removal happens while
the broadcast is about to reach it, and only there (`delivered_once_iff`).
-/

namespace FlipperBack

open Effects

namespace ClientHub

variable {Client Message : Type} [DecidableEq Client]

/-- The loop of a broadcast has ended. -/
def Finished (hub : ClientHub Client Message) (i : ℕ) : Prop :=
  ∃ loop, hub.loops[i]? = some loop ∧ loop.finished = true

/-- A step sends the message of a broadcast to a client. -/
def Sends (hub : ClientHub Client Message) (i : ℕ) (x : Client) : HubStep Client Message → Prop
  | .resume j => i = j ∧ hub.Visits i x
  | .broadcast _ => i = hub.loops.length ∧ hub.clients[0]? = some x
  | _ => False

/-- A client that is in the list, with what the broadcasts have made of it: those
that have ended have passed it, and those that have not passed it have delivered
nothing to it. -/
structure Watched (hub : ClientHub Client Message) (x : Client) : Prop where
  nodup : hub.clients.Nodup
  mem : x ∈ hub.clients
  finished : ∀ i, hub.Finished i → hub.Passed i x
  unreached : ∀ i, ¬ hub.Passed i x → hub.reached i x = 0

section Step

variable {fails : ℕ → Client → Bool} {hub : ClientHub Client Message} {i : ℕ} {x : Client}
  {s : HubStep Client Message}

/-- A client that stays is passed by a broadcast that sends to it, or that misses
it. -/
theorem passed_step (hw : hub.Watched x) (hs : s ≠ .remove x) :
    (hub.step fails s).Passed i x ↔ hub.Passed i x ∨ hub.Sends i x s ∨ hub.Misses i x s := by
  cases s with
  | add client => simpa [step, Sends, Misses] using passed_addClient hw.mem
  | remove client =>
      have hne : x ≠ client := fun heq => hs (heq ▸ rfl)
      rw [step, passed_removeClient hw.nodup hw.mem hne]
      simp only [Sends, Misses, false_or]
      refine or_congr_right' fun hpassed => ?_
      constructor
      · rintro ⟨loop, hloop, hmem, hgone, hclient⟩
        refine ⟨hmem, ⟨loop, hloop, hgone⟩, loop, hloop, ?_, hclient⟩
        by_contra hfinished
        exact hpassed (hw.finished i ⟨loop, hloop, by simpa using hfinished⟩)
      · rintro ⟨hmem, ⟨loop, hloop, hgone⟩, loop', hloop', -, hclient⟩
        obtain rfl := Option.some.inj (hloop.symm.trans hloop')
        exact ⟨loop, hloop, hmem, hgone, hclient⟩
  | broadcast message =>
      have hnodup : (hub.push message).clients.Nodup := hw.nodup
      have hmem : x ∈ (hub.push message).clients := hw.mem
      rw [step, broadcast, passed_turn hnodup hmem, passed_push]
      simp only [Sends, Misses, or_false]
      refine or_congr_right (and_congr_right ?_)
      rintro rfl
      exact visits_push message
  | resume j =>
      rw [step, passed_turn hw.nodup hw.mem]
      simp only [Sends, Misses, or_false]
      refine or_congr_right (and_congr_right ?_)
      rintro rfl
      rfl

theorem messages_step : (hub.step fails s).messages = hub.messages ++
    match s with
    | .broadcast message => [message]
    | _ => [] := by
  cases s with
  | add client => exact (List.append_nil _).symm
  | remove client =>
      rw [step, removeClient, List.append_nil]
      split <;> rfl
  | broadcast message =>
      rw [step, broadcast, messages_turn, messages, push, List.map_append]
      rfl
  | resume j => rw [step, messages_turn, List.append_nil]

/-- What a step that sends to a client delivers to it. -/
theorem deliveries_of_sends (h : hub.Sends i x s) (hfails : fails i x = false) :
    ∃ message, (hub.step fails s).messages[i]? = some message ∧
      (hub.step fails s).deliveries =
        hub.deliveries ++ [{ broadcast := i, client := x, message }] := by
  cases s with
  | add client => exact h.elim
  | remove client => exact h.elim
  | broadcast message =>
      obtain ⟨rfl, hclient⟩ := h
      obtain ⟨loop, hloop, hdeliveries⟩ :=
        deliveries_turn_of_visits ((visits_push message).mpr hclient) hfails
      refine ⟨loop.message, ?_, hdeliveries⟩
      rw [step, broadcast, messages_turn, messages, List.getElem?_map, hloop]
      rfl
  | resume j =>
      obtain ⟨rfl, hvisits⟩ := h
      obtain ⟨loop, hloop, hdeliveries⟩ := deliveries_turn_of_visits hvisits hfails
      refine ⟨loop.message, ?_, hdeliveries⟩
      rw [step, messages_turn, messages, List.getElem?_map, hloop]
      rfl

variable (fails hub s) in
/-- What a step delivers is sent by it. -/
theorem deliveries_step : ∃ sent, (hub.step fails s).deliveries = hub.deliveries ++ sent ∧
    ∀ d ∈ sent, hub.Sends d.broadcast d.client s := by
  cases s with
  | add client => exact ⟨[], (List.append_nil _).symm, by simp⟩
  | remove client =>
      refine ⟨[], ?_, by simp⟩
      rw [List.append_nil, step, removeClient]
      split <;> rfl
  | broadcast message =>
      obtain ⟨sent, heq, hsent⟩ :=
        deliveries_turn fails (hub.push message) hub.loops.length
      exact ⟨sent, heq, fun d hd => ⟨(hsent d hd).1, (visits_push message).mp (hsent d hd).2⟩⟩
  | resume j =>
      obtain ⟨sent, heq, hsent⟩ := deliveries_turn fails hub j
      refine ⟨sent, heq, fun d hd => ⟨(hsent d hd).1, ?_⟩⟩
      rw [(hsent d hd).1]
      exact (hsent d hd).2

theorem reached_of_not_sends (h : ¬ hub.Sends i x s) :
    (hub.step fails s).reached i x = hub.reached i x := by
  obtain ⟨sent, heq, hsent⟩ := deliveries_step fails hub s
  unfold reached
  rw [heq, List.countP_append, Nat.add_eq_left, List.countP_eq_zero]
  intro d hd hmatch
  obtain ⟨rfl, rfl⟩ := of_decide_eq_true hmatch
  exact h (hsent d hd)

theorem reached_of_sends (h : hub.Sends i x s) (hfails : fails i x = false) :
    (hub.step fails s).reached i x = hub.reached i x + 1 := by
  obtain ⟨message, -, heq⟩ := deliveries_of_sends h hfails
  unfold reached
  rw [heq, List.countP_append, List.countP_singleton, if_pos (by simp)]

/-- The end of a loop is one that was there, or that of a loop with no client
left at its position. -/
theorem finished_step (h : (hub.step fails s).Finished i) :
    hub.Finished i ∨ ∃ loop, (hub.step fails s).loops[i]? = some loop ∧
      (hub.step fails s).clients[loop.cursor]? = none := by
  have hturn {hub : ClientHub Client Message} {j : ℕ} (h : (hub.turn fails j).Finished i) :
      hub.Finished i ∨ ∃ loop, (hub.turn fails j).loops[i]? = some loop ∧
        (hub.turn fails j).clients[loop.cursor]? = none := by
    obtain ⟨loop', hloop', hfinished'⟩ := h
    rw [clients_turn]
    rcases turn_cases fails hub j with
      ⟨heq, -⟩ | ⟨loop, hloop, hfinished, hclient, heq⟩ | ⟨loop, _, hloop, hfinished, -, heq⟩
    · exact Or.inl ⟨loop', by rwa [heq] at hloop', hfinished'⟩
    · by_cases hij : i = j
      · subst hij
        rw [heq]
        exact Or.inr ⟨_, set_loop hloop, hclient⟩
      · rw [heq, List.getElem?_set_ne fun h => hij h.symm] at hloop'
        exact Or.inl ⟨loop', hloop', hfinished'⟩
    · by_cases hij : i = j
      · subst hij
        rw [heq, set_loop hloop] at hloop'
        rw [← Option.some.inj hloop', hfinished] at hfinished'
        cases hfinished'
      · rw [heq, List.getElem?_set_ne fun h => hij h.symm] at hloop'
        exact Or.inl ⟨loop', hloop', hfinished'⟩
  cases s with
  | add client => exact Or.inl h
  | remove client =>
      rw [step, removeClient] at h
      split at h
      · exact Or.inl h
      · exact Or.inl h
  | broadcast message =>
      refine (hturn h).imp_left fun ⟨loop, hloop, hfinished⟩ => ?_
      rw [push, List.getElem?_append] at hloop
      split at hloop
      · exact ⟨loop, hloop, hfinished⟩
      · obtain ⟨hi, rfl⟩ := List.getElem?_eq_some_iff.mp hloop
        simp at hfinished
  | resume j => exact hturn h

theorem clients_step : (hub.step fails s).clients =
    match s with
    | .add client => hub.clients ++ [client]
    | .remove client => hub.clients.erase client
    | _ => hub.clients := by
  cases s with
  | add client => rfl
  | remove client =>
      rw [step, removeClient]
      split
      · rfl
      · next hmem => exact (List.erase_of_not_mem hmem).symm
  | broadcast message => exact clients_turn
  | resume j => exact clients_turn

/-- A client that stays is watched on. -/
theorem Watched.step (hw : hub.Watched x) (hs : s ≠ .remove x) (hfresh : hub.Fresh s) :
    (hub.step fails s).Watched x := by
  have hmem : x ∈ (hub.step fails s).clients := by
    rw [clients_step]
    cases s with
    | add client => exact List.mem_append_left _ hw.mem
    | remove client =>
        have hne : x ≠ client := fun heq => hs (heq ▸ rfl)
        exact (List.mem_erase_of_ne hne).mpr hw.mem
    | _ => exact hw.mem
  refine ⟨?_, hmem, ?_, ?_⟩
  · rw [clients_step]
    cases s with
    | add client =>
        refine List.nodup_append.mpr ⟨hw.nodup, by simp, ?_⟩
        rintro a ha b hb rfl
        exact hfresh (List.mem_singleton.mp hb ▸ ha)
    | remove client => exact hw.nodup.erase client
    | _ => exact hw.nodup
  · intro i hi
    rcases finished_step hi with hold | ⟨loop, hloop, hclient⟩
    · exact (passed_step hw hs).mpr (Or.inl (hw.finished i hold))
    · exact ⟨loop, hloop, LiveList.passed_of_getElem?_eq_none hmem hclient⟩
  · intro i hi
    rw [passed_step hw hs, not_or, not_or] at hi
    rw [reached_of_not_sends hi.2.1, hw.unreached i hi.1]

/-- A broadcast sends to a client that it has not passed. -/
theorem Watched.not_passed_of_sends (hw : hub.Watched x) (h : hub.Sends i x s) :
    ¬ hub.Passed i x := by
  cases s with
  | add client => exact h.elim
  | remove client => exact h.elim
  | broadcast message =>
      rintro ⟨loop, hloop, -⟩
      rw [h.1, List.getElem?_eq_none (Nat.le_refl _)] at hloop
      cases hloop
  | resume j =>
      obtain ⟨rfl, loop, hloop, -, hclient⟩ := h
      rintro ⟨loop', hloop', hpassed⟩
      obtain rfl := Option.some.inj (hloop.symm.trans hloop')
      exact LiveList.not_passed_of_getElem? hw.nodup hclient hpassed

theorem Watched.not_passed_of_misses (hw : hub.Watched x) (h : hub.Misses i x s) :
    ¬ hub.Passed i x := by
  cases s with
  | remove gone =>
      obtain ⟨-, -, loop, hloop, -, hclient⟩ := h
      rintro ⟨loop', hloop', hpassed⟩
      obtain rfl := Option.some.inj (hloop.symm.trans hloop')
      exact LiveList.not_passed_of_getElem? hw.nodup hclient hpassed
  | _ => exact h.elim

end Step

/-! ## Runs -/

section Runs

variable {fails : ℕ → Client → Bool} {hub : ClientHub Client Message} {i : ℕ} {x : Client}
  {steps : List (HubStep Client Message)}

/-- A client that has been missed by a broadcast is never sent to by it. -/
theorem missed_run (hw : hub.Watched x) (hstays : HubStep.remove x ∉ steps)
    (hfresh : Runs.Along (step fails) Fresh hub steps) (hpassed : hub.Passed i x)
    (hreached : hub.reached i x = 0) : (steps.foldl (step fails) hub).reached i x = 0 := by
  induction steps generalizing hub with
  | nil => exact hreached
  | cons s steps ih =>
      have hs : s ≠ .remove x := fun heq => hstays (heq ▸ List.mem_cons_self)
      refine ih (hw.step hs hfresh.1) (fun h => hstays (List.mem_cons_of_mem s h)) hfresh.2
        ((passed_step hw hs).mpr (Or.inl hpassed)) ?_
      rw [reached_of_not_sends fun h => hw.not_passed_of_sends h hpassed, hreached]

/-- A client that stays, and can be sent to, has been reached once by a broadcast
that has ended, exactly where the broadcast never misses it. -/
theorem reached_run_iff (hw : hub.Watched x) (hstays : HubStep.remove x ∉ steps)
    (hfresh : Runs.Along (step fails) Fresh hub steps) (hfails : fails i x = false)
    (hend : (steps.foldl (step fails) hub).Finished i)
    (hreached : hub.Passed i x → hub.reached i x = 1) :
    (steps.foldl (step fails) hub).reached i x = 1 ↔
      Runs.Along (step fails) (fun hub s => ¬ hub.Misses i x s) hub steps := by
  induction steps generalizing hub with
  | nil => exact iff_of_true (hreached (hw.finished i hend)) trivial
  | cons s steps ih =>
      have hs : s ≠ .remove x := fun heq => hstays (heq ▸ List.mem_cons_self)
      have hstays' : HubStep.remove x ∉ steps := fun h => hstays (List.mem_cons_of_mem s h)
      have hw' : (hub.step fails s).Watched x := hw.step hs hfresh.1
      rw [List.foldl_cons]
      by_cases hmiss : hub.Misses i x s
      · refine iff_of_false ?_ fun h => h.1 hmiss
        rw [missed_run hw' hstays' hfresh.2 ((passed_step hw hs).mpr (Or.inr (Or.inr hmiss)))]
        · exact Nat.zero_ne_one
        · have hnot : ¬ hub.Sends i x s := by
            cases s with
            | remove gone => exact id
            | _ => exact hmiss.elim
          rw [reached_of_not_sends hnot, hw.unreached i (hw.not_passed_of_misses hmiss)]
      · refine (ih hw' hstays' hfresh.2 hend ?_).trans (and_iff_right hmiss).symm
        intro hpassed
        rcases (passed_step hw hs).mp hpassed with hpassed | hsends | hmissed
        · rw [reached_of_not_sends fun h => hw.not_passed_of_sends h hpassed, hreached hpassed]
        · rw [reached_of_sends hsends hfails, hw.unreached i (hw.not_passed_of_sends hsends)]
        · exact absurd hmissed hmiss

end Runs

end ClientHub

/-- A client that is in the list at the start and is not removed. -/
def Stays {Client Message : Type} (clients : List Client)
    (steps : List (HubStep Client Message)) (x : Client) : Prop :=
  x ∈ clients ∧ .remove x ∉ steps

/-- A hub at the first send of a broadcast. -/
def ClientHub.started {Client Message : Type} (fails : ℕ → Client → Bool)
    (clients : List Client) (message : Message) : ClientHub Client Message :=
  ClientHub.broadcast fails { clients } message

/-- Over a broadcast, every client that stays and can be sent to receives the
message exactly once where no client that the broadcast is past is removed while
it is about to reach one of these, and only there. -/
theorem delivered_once_iff {Client Message : Type} [DecidableEq Client]
    (fails : ℕ → Client → Bool) (clients : List Client) (hnodup : clients.Nodup)
    (message : Message) (steps : List (HubStep Client Message))
    (hfresh : Runs.Along (ClientHub.step fails) ClientHub.Fresh
      (.started fails clients message) steps)
    (hend : (steps.foldl (ClientHub.step fails) (.started fails clients message)).Finished 0) :
    (∀ x, Stays clients steps x ∧ fails 0 x = false →
        (steps.foldl (ClientHub.step fails) (.started fails clients message)).reached 0 x = 1) ↔
      Runs.Along (ClientHub.step fails) (fun hub s => ∀ x, Stays clients steps x ∧
        fails 0 x = false → ¬ hub.Misses 0 x s) (.started fails clients message) steps := by
  rw [Runs.along_forall]
  refine forall_congr' fun x => ?_
  by_cases hx : Stays clients steps x ∧ fails 0 x = false
  · have hw : ClientHub.Watched ({ clients } : ClientHub Client Message) x :=
      { nodup := hnodup
        mem := hx.1.1
        finished := fun i h => by simp [ClientHub.Finished] at h
        unreached := fun i _ => rfl }
    have hs : HubStep.broadcast message ≠ HubStep.remove x := by simp
    have hone := ClientHub.reached_run_iff (hw.step hs trivial) hx.1.2 hfresh hx.2 hend
      fun hpassed => by
        rcases (ClientHub.passed_step hw hs).mp hpassed with ⟨loop, h, -⟩ | hsends | hmissed
        · simp at h
        · exact ClientHub.reached_of_sends hsends hx.2
        · exact hmissed.elim
    constructor
    · exact fun h => (hone.mp (h hx)).mono fun hub s hmiss _ => hmiss
    · exact fun h _ => hone.mpr (h.mono fun hub s hmiss => hmiss hx)
  · exact iff_of_true (fun h => absurd h hx)
      (Runs.along_of_forall (fun hub s h => absurd h hx) _ _)

/-- The first of three screens disconnects while it is being sent a message. -/
def firstLeaves : List (HubStep ℕ String) :=
  [.remove 1, .resume 0, .resume 0]

theorem delivered_once_iff_firstLeaves :
    (∀ x, Stays [1, 2, 3] firstLeaves x ∧ false = false →
        (firstLeaves.foldl (ClientHub.step fun _ _ => false)
          (.started (fun _ _ => false) [1, 2, 3] "nav:state")).reached 0 x = 1) ↔
      Runs.Along (ClientHub.step fun _ _ => false) (fun hub s => ∀ x,
        Stays [1, 2, 3] firstLeaves x ∧ false = false → ¬ hub.Misses 0 x s)
          (.started (fun _ _ => false) [1, 2, 3] "nav:state") firstLeaves :=
  delivered_once_iff (fun _ _ => false) [1, 2, 3] (by decide) "nav:state" firstLeaves
    ⟨trivial, trivial, trivial, trivial⟩
    ⟨{ message := "nav:state", cursor := 2, finished := true }, rfl, rfl⟩

/-- The second one stays and is never sent the message. -/
theorem firstLeaves_misses :
    Stays [1, 2, 3] firstLeaves 2 ∧
      (firstLeaves.foldl (ClientHub.step fun _ _ => false)
        (.started (fun _ _ => false) [1, 2, 3] "nav:state")).reached 0 2 = 0 := by
  refine ⟨⟨by decide, ?_⟩, by decide⟩
  simp [firstLeaves]

end FlipperBack
