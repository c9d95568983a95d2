import FlipperBack.Properties.HubDelivery

/-!
# The order of concurrent broadcasts

Nothing keeps two broadcasts on one hub apart: each is a loop of its own over the
clients. Where every broadcast stays behind those that started before it and
misses no client, the clients that stay receive the messages in the order in
which the broadcasts have started, so one has received at any moment the first
messages of what another has (`same_sequence`).
-/

namespace FlipperBack

open Effects

namespace ClientHub

variable {Client Message : Type} [DecidableEq Client]

/-- The broadcasts that started before `j` and have not ended are further in the
list than it. -/
def Trails (hub : ClientHub Client Message) (j : ℕ) : Prop :=
  ∀ loop ∈ hub.loops[j]?, ∀ ahead ∈ hub.loops.take j,
    ahead.finished = false → loop.cursor < ahead.cursor

instance (hub : ClientHub Client Message) (j : ℕ) : Decidable (hub.Trails j) :=
  inferInstanceAs (Decidable (∀ loop ∈ hub.loops[j]?, ∀ ahead ∈ hub.loops.take j, _))

/-- For the clients in `K`: a broadcast that goes on to one of them trails those
that started before it, and none of them is missed by a broadcast. -/
def InOrder (K : Client → Prop) (hub : ClientHub Client Message) (s : HubStep Client Message) :
    Prop :=
  (∀ x i, K x → ¬ hub.Misses i x s) ∧
    ∀ x j, K x → s = .resume j → hub.Visits j x → hub.Trails j

/-- A client has received the messages of the broadcasts that have passed it,
which are the first ones. -/
structure Ordered (hub : ClientHub Client Message) (x : Client) : Prop where
  watched : hub.Watched x
  started : ∀ loop ∈ hub.loops, loop.finished = false → 0 < loop.cursor
  received : ∃ n, hub.inbox x = hub.messages.take n ∧ ∀ i, hub.Passed i x ↔ i < n

section Step

variable {fails : ℕ → Client → Bool} {hub : ClientHub Client Message} {i : ℕ} {x : Client}
  {s : HubStep Client Message}

theorem lt_of_passed (h : hub.Passed i x) : i < hub.messages.length := by
  obtain ⟨loop, hloop, -⟩ := h
  rw [messages, List.length_map]
  exact (List.getElem?_eq_some_iff.mp hloop).1

omit [DecidableEq Client] in
/-- A loop that has taken a turn has ended, or it is past the start. -/
theorem started_turn (h : ∀ j ≠ i, ∀ loop, hub.loops[j]? = some loop → loop.finished = false →
    0 < loop.cursor) :
    ∀ loop ∈ (hub.turn fails i).loops, loop.finished = false → 0 < loop.cursor := by
  intro loop' hmem hfinished'
  obtain ⟨j, hj⟩ := List.mem_iff_getElem?.mp hmem
  by_cases hij : j = i
  · subst hij
    rcases turn_cases fails hub j with
      ⟨heq, hall⟩ | ⟨loop, hloop, -, -, heq⟩ | ⟨loop, _, hloop, -, -, heq⟩
    · rw [heq] at hj
      rw [hall loop' hj] at hfinished'
      cases hfinished'
    · rw [heq, set_loop hloop] at hj
      rw [← Option.some.inj hj] at hfinished'
      cases hfinished'
    · rw [heq, set_loop hloop] at hj
      rw [← Option.some.inj hj]
      exact Nat.succ_pos _
  · refine h j hij loop' ?_ hfinished'
    rcases turn_cases fails hub i with ⟨heq, -⟩ | ⟨loop, -, -, -, heq⟩ | ⟨loop, _, -, -, -, heq⟩
    · rwa [heq] at hj
    · rwa [heq, List.getElem?_set_ne fun h => hij h.symm] at hj
    · rwa [heq, List.getElem?_set_ne fun h => hij h.symm] at hj

theorem started_step (h : ∀ loop ∈ hub.loops, loop.finished = false → 0 < loop.cursor) :
    ∀ loop ∈ (hub.step fails s).loops, loop.finished = false → 0 < loop.cursor := by
  cases s with
  | add client => exact h
  | remove client =>
      rw [step, removeClient]
      split
      · exact h
      · exact h
  | broadcast message =>
      refine started_turn fun j hj loop hloop => h loop ?_
      rw [push, List.getElem?_append] at hloop
      split at hloop
      · exact List.mem_of_getElem? hloop
      · next hlt =>
          obtain ⟨hlen, -⟩ := List.getElem?_eq_some_iff.mp hloop
          rw [List.length_singleton] at hlen
          omega
  | resume j => exact started_turn fun j' _ loop hloop => h loop (List.mem_of_getElem? hloop)

theorem inbox_of_not_sends (h : ∀ i, ¬ hub.Sends i x s) :
    (hub.step fails s).inbox x = hub.inbox x := by
  obtain ⟨sent, heq, hsent⟩ := deliveries_step fails hub s
  have hnone : (sent.filter fun d => d.client = x) = [] := by
    refine List.filter_eq_nil_iff.mpr fun d hd hclient => ?_
    have hclient : d.client = x := by simpa using hclient
    exact h d.broadcast (hclient ▸ hsent d hd)
  rw [inbox, heq, List.filter_append, hnone, List.append_nil, inbox]

theorem inbox_of_sends (h : hub.Sends i x s) (hfails : fails i x = false) :
    ∃ message, (hub.step fails s).messages[i]? = some message ∧
      (hub.step fails s).inbox x = hub.inbox x ++ [message] := by
  obtain ⟨message, hmessage, heq⟩ := deliveries_of_sends h hfails
  refine ⟨message, hmessage, ?_⟩
  unfold inbox
  rw [heq, List.filter_append, List.map_append]
  simp

/-- A broadcast that sends to a client has been trailing: all those that started
before it have passed this client. -/
theorem Ordered.passed_before (ho : hub.Ordered x) (hsends : hub.Sends i x s)
    (htrails : ∀ j, s = .resume j → hub.Visits j x → hub.Trails j) {j : ℕ} (hij : j < i) :
    hub.Passed j x := by
  have hlen : i ≤ hub.loops.length := by
    cases s with
    | broadcast message => exact Nat.le_of_eq hsends.1
    | resume i' =>
        obtain ⟨rfl, loop, hloop, -⟩ := hsends
        exact Nat.le_of_lt (List.getElem?_eq_some_iff.mp hloop).1
    | add client => exact hsends.elim
    | remove client => exact hsends.elim
  obtain ⟨ahead, hahead⟩ : ∃ ahead, hub.loops[j]? = some ahead :=
    ⟨_, List.getElem?_eq_getElem (by omega)⟩
  by_cases hfinished : ahead.finished = true
  · exact ho.watched.finished j ⟨ahead, hahead, hfinished⟩
  · have hfinished : ahead.finished = false := by simpa using hfinished
    refine ⟨ahead, hahead, ?_⟩
    unfold LiveList.Passed
    cases s with
    | broadcast message =>
        rw [(LiveList.idxOf_eq_iff ho.watched.nodup ho.watched.mem).mpr hsends.2]
        exact ho.started ahead (List.mem_of_getElem? hahead) hfinished
    | resume i' =>
        have htrails := htrails i' rfl (hsends.1 ▸ hsends.2)
        obtain ⟨rfl, loop, hloop, -, hclient⟩ := hsends
        rw [(LiveList.idxOf_eq_iff ho.watched.nodup ho.watched.mem).mpr hclient]
        refine htrails loop hloop ahead (List.mem_of_getElem? (i := j) ?_) hfinished
        rw [List.getElem?_take_of_lt hij, hahead]
    | add client => exact hsends.elim
    | remove client => exact hsends.elim

theorem Ordered.step (ho : hub.Ordered x) (hs : s ≠ .remove x) (hfresh : hub.Fresh s)
    (hfails : ∀ i, fails i x = false) (hmiss : ∀ i, ¬ hub.Misses i x s)
    (htrails : ∀ j, s = .resume j → hub.Visits j x → hub.Trails j) :
    (hub.step fails s).Ordered x := by
  refine ⟨ho.watched.step hs hfresh, started_step ho.started, ?_⟩
  obtain ⟨n, hinbox, hpassed⟩ := ho.received
  obtain ⟨rest, hmessages⟩ : ∃ rest, (hub.step fails s).messages = hub.messages ++ rest :=
    ⟨_, messages_step⟩
  have hn : n ≤ hub.messages.length := by
    cases n with
    | zero => exact Nat.zero_le _
    | succ n => exact lt_of_passed ((hpassed n).mpr (Nat.lt_succ_self n))
  have htake : (hub.step fails s).messages.take n = hub.messages.take n := by
    rw [hmessages, List.take_append_of_le_length hn]
  by_cases hsends : ∃ i, hub.Sends i x s
  · obtain ⟨i, hsends⟩ := hsends
    have hi : n = i := by
      have hnot := ho.watched.not_passed_of_sends hsends
      rw [hpassed, Nat.not_lt] at hnot
      refine Nat.le_antisymm hnot (Nat.not_lt.mp fun hlt => ?_)
      exact Nat.lt_irrefl n ((hpassed n).mp (ho.passed_before hsends htrails hlt))
    subst hi
    obtain ⟨message, hmessage, heq⟩ := inbox_of_sends hsends (hfails n)
    refine ⟨n + 1, ?_, fun j => ?_⟩
    · rw [heq, hinbox, List.take_add_one, htake, hmessage]
      rfl
    · have hunique : hub.Sends j x s ↔ j = n := by
        constructor
        · intro h
          cases s with
          | broadcast message => exact h.1.trans hsends.1.symm
          | resume i' => exact h.1.trans hsends.1.symm
          | add client => exact h.elim
          | remove client => exact h.elim
        · rintro rfl
          exact hsends
      rw [passed_step ho.watched hs, hpassed, hunique, or_iff_left (hmiss j)]
      omega
  · rw [not_exists] at hsends
    refine ⟨n, by rw [inbox_of_not_sends hsends, hinbox, htake], fun j => ?_⟩
    rw [passed_step ho.watched hs, hpassed, or_iff_left]
    exact not_or.mpr ⟨hsends j, hmiss j⟩

/-- Where every broadcast has ended a client has received all messages. -/
theorem Ordered.inbox_of_quiet (ho : hub.Ordered x) (hquiet : hub.Quiet) :
    hub.inbox x = hub.messages := by
  obtain ⟨n, hinbox, hpassed⟩ := ho.received
  have hn : hub.messages.length ≤ n := by
    refine Nat.not_lt.mp fun hlt => ?_
    have hlen : n < hub.loops.length := by rwa [messages, List.length_map] at hlt
    have hended : hub.Finished n :=
      ⟨_, List.getElem?_eq_getElem hlen, hquiet _ (List.getElem_mem hlen)⟩
    exact Nat.lt_irrefl n ((hpassed n).mp (ho.watched.finished n hended))
  rw [hinbox, List.take_of_length_le hn]

/-- Of two clients, one has received the first messages of what the other has. -/
theorem Ordered.prefix_or {y : Client} (hx : hub.Ordered x) (hy : hub.Ordered y) :
    hub.inbox x <+: hub.inbox y ∨ hub.inbox y <+: hub.inbox x := by
  obtain ⟨n, hn, -⟩ := hx.received
  obtain ⟨m, hm, -⟩ := hy.received
  rw [hn, hm]
  exact (Nat.le_total n m).imp (fun h => List.take_prefix_take_left h)
    fun h => List.take_prefix_take_left h

theorem ordered_nil (clients : List Client) (hnodup : clients.Nodup) (hx : x ∈ clients) :
    ({ clients } : ClientHub Client Message).Ordered x where
  watched :=
    { nodup := hnodup
      mem := hx
      finished := fun i h => by simp [Finished] at h
      unreached := fun i _ => rfl }
  started := fun loop h => by cases h
  received := ⟨0, rfl, fun i => iff_of_false (fun h => Nat.not_lt_zero i (lt_of_passed h))
    (Nat.not_lt_zero i)⟩

end Step

/-- Clients have received the same messages in the same order, up to those of
the broadcasts in progress. -/
def SameSequence (K : Client → Prop) (hub : ClientHub Client Message) : Prop :=
  ∀ x y, K x → K y → (hub.inbox x <+: hub.inbox y ∨ hub.inbox y <+: hub.inbox x) ∧
    (hub.Quiet → hub.inbox x = hub.inbox y)

end ClientHub

/-- In a run in which no broadcast overtakes one that started before it, or
misses one of the clients that stay, these receive the same messages in the same
order. -/
theorem same_sequence {Client Message : Type} [DecidableEq Client]
    (fails : ℕ → Client → Bool) (clients : List Client) (hnodup : clients.Nodup)
    (steps : List (HubStep Client Message))
    (hfresh : Runs.Along (ClientHub.step fails) ClientHub.Fresh { clients } steps)
    (hfails : ∀ x, Stays clients steps x → ∀ i, fails i x = false)
    (horder : Runs.Along (ClientHub.step fails)
      (ClientHub.InOrder (Stays clients steps)) { clients } steps) :
    ∀ pre, pre <+: steps →
      ClientHub.SameSequence (Stays clients steps)
        (pre.foldl (ClientHub.step fails) { clients }) := by
  rintro pre ⟨rest, hsteps⟩
  have hordered x (hx : Stays clients steps x) :
      (pre.foldl (ClientHub.step fails) { clients }).Ordered x := by
    have hkept : ∀ s ∈ pre, s ≠ .remove x := fun s hs heq =>
      hx.2 (hsteps ▸ List.mem_append_left rest (heq ▸ hs))
    rw [← hsteps, Runs.along_append] at hfresh
    rw [← hsteps, Runs.along_append, hsteps] at horder
    have hkept : Runs.Along (ClientHub.step fails) (fun _ s => s ≠ .remove x) { clients } pre :=
      Runs.along_of_mem hkept _
    have hrun := hkept.and (hfresh.1.and horder.1)
    refine Runs.invariant (I := fun hub => hub.Ordered x) (fun hub s ho hs => ?_)
      (ClientHub.ordered_nil clients hnodup hx.1) hrun
    exact ho.step hs.1 hs.2.1 (hfails x hx) (fun i => hs.2.2.1 x i hx)
      fun j => hs.2.2.2 x j hx
  intro x y hx hy
  refine ⟨(hordered x hx).prefix_or (hordered y hy), fun hquiet => ?_⟩
  rw [(hordered x hx).inbox_of_quiet hquiet, (hordered y hy).inbox_of_quiet hquiet]

/-- A tick goes to two screens while the one before it is on its way. -/
def inTurn : List (HubStep ℕ String) :=
  [.broadcast "3", .resume 0, .broadcast "2", .resume 1, .resume 0, .resume 1]

theorem inOrder_inTurn :
    Runs.Along (ClientHub.step fun _ _ => false) (ClientHub.InOrder (Stays [1, 2] inTurn))
      { clients := [1, 2] } inTurn := by
  refine ⟨⟨fun _ _ _ => id, ?_⟩, ⟨fun _ _ _ => id, ?_⟩, ⟨fun _ _ _ => id, ?_⟩,
    ⟨fun _ _ _ => id, ?_⟩, ⟨fun _ _ _ => id, ?_⟩, ⟨fun _ _ _ => id, ?_⟩, trivial⟩
  all_goals
    rintro x j - ⟨⟩ -
    try decide

theorem same_sequence_inTurn :
    ClientHub.SameSequence (Stays [1, 2] inTurn)
      (inTurn.foldl (ClientHub.step fun _ _ => false) { clients := [1, 2] }) :=
  same_sequence (fun _ _ => false) [1, 2] (by decide) inTurn
    ⟨trivial, trivial, trivial, trivial, trivial, trivial, trivial⟩ (fun _ _ _ => rfl)
    inOrder_inTurn inTurn List.prefix_rfl

/-- The second tick overtakes the first one at the first screen. -/
def overtaken : List (HubStep ℕ String) :=
  [.broadcast "3", .broadcast "2", .resume 1, .resume 0, .resume 0, .resume 1]

theorem overtaken_differs :
    ¬ ClientHub.SameSequence (Stays [1, 2] overtaken)
      (overtaken.foldl (ClientHub.step fun _ _ => false) { clients := [1, 2] }) := by
  intro h
  have hone : Stays [1, 2] overtaken 1 := ⟨by decide, by simp [overtaken]⟩
  have htwo : Stays [1, 2] overtaken 2 := ⟨by decide, by simp [overtaken]⟩
  rcases (h 1 2 hone htwo).1 with hprefix | hprefix
  · exact absurd hprefix (by decide)
  · exact absurd hprefix (by decide)

end FlipperBack
