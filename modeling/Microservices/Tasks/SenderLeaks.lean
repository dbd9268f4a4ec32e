import Microservices.Tasks.Publishing

/-!
# What the shared sender leaves open

A client is a connection, and is to be closed by somebody: it is installed, or a reset
has taken it out and will close it. The lock body of `_get_sender` installs a new client
without a look at the old one. There is an old one just when an earlier lock body has
made a client but no sender, and its publish has not come to its reset yet. That client
is lost.

Without that, `close_sender` at shutdown finds all there is.
-/

namespace Microservices.Tasks

open Schedule

namespace SenderPool

/-- `close_sender`. -/
def closeShared (w : SenderPool) : SenderPool :=
  let afterSender :=
    match w.sbSender with
    | some k => { w.closeSender k with sbSender := none }
    | none => w
  match afterSender.sbClient with
  | some c => { afterSender.closeClient c with sbClient := none }
  | none => afterSender

/-- The client has not been closed. -/
def ClientOpen (w : SenderPool) (c : Nat) : Prop :=
  ∃ client, w.clients[c]? = some client ∧ client.closed = false

/-- Some reset has taken the client out, and closes it after its sender. -/
def Held (w : SenderPool) (c : Nat) : Prop := ∃ i, w.phase i = some (.closingSender (some c))

/-- **No client is lost**: an open one is installed, or about to be closed. -/
def LeaksNothing (w : SenderPool) : Prop := ∀ c, w.ClientOpen c → w.sbClient = some c ∨ w.Held c

/-- A lock body that makes a client finds none installed. -/
def OverwritesNone (w : SenderPool) : PublishStep → Prop
  | .lock i building => w.phase i = some .locking → w.sbSender = none →
      match building with
      | .clientRaises => True
      | .built | .senderRaises => w.sbClient = none
  | _ => True

/-- Nothing is open. -/
structure AllClosed (w : SenderPool) : Prop where
  clients : ∀ client ∈ w.clients, client.closed = true
  senders : ∀ s ∈ w.senders, s.closed = true

/-- The installed client is open and in nobody's hands, and an open sender has an open client. -/
structure Connected (w : SenderPool) : Prop where
  installed : ∀ c, w.sbClient = some c → w.ClientOpen c ∧ ¬ w.Held c
  held : ∀ c, w.Held c → c < w.clients.length
  senders : ∀ s ∈ w.senders, s.closed = false → w.ClientOpen s.client

/-- An open sender was there already, and open. -/
def SendersKept (w w' : SenderPool) : Prop :=
  ∀ s' ∈ w'.senders, s'.closed = false → ∃ s ∈ w.senders, s.closed = false ∧ s.client = s'.client

/-- **What a step does to the clients.** -/
inductive Turns (settings : Settings) (w : SenderPool) (e : PublishStep) (w' : SenderPool) : Prop where
  | quiet (fine : w.OverwritesNone e) (clients : w'.clients = w.clients) (installed : w'.sbClient = w.sbClient)
      (held : ∀ c, w'.Held c ↔ w.Held c) (senders : w.SendersKept w')
  /-- The lock body of `_get_sender` makes one. -/
  | made (overwrites : w.sbClient = none ↔ w.OverwritesNone e)
      (clients : w'.clients
        = w.clients ++ [{ connectionString := settings.servicebusConnectionString }])
      (installed : w'.sbClient = some w.clients.length) (held : ∀ c, w'.Held c ↔ w.Held c)
      (senders : ∀ s' ∈ w'.senders, s'.closed = false → s'.client = w.clients.length
        ∨ ∃ s ∈ w.senders, s.closed = false ∧ s.client = s'.client)
  /-- A reset takes it out. -/
  | taken (fine : w.OverwritesNone e) (clients : w'.clients = w.clients)
      (installed : w'.sbClient = none)
      (held : ∀ c, w'.Held c ↔ w.Held c ∨ w.sbClient = some c) (senders : w.SendersKept w')
  /-- It is closed, by a reset that finds no sender or after its sender. -/
  | closed (c : Nat) (fine : w.OverwritesNone e) (whose : w.sbClient = some c ∧ w'.sbClient = none
        ∨ w.Held c ∧ w'.sbClient = w.sbClient)
      (clients : w'.clients = w.clients.modify c fun cl => { cl with closed := true })
      (held : ∀ c', w'.Held c' → w.Held c') (others : ∀ c', w.Held c' → c' = c ∨ w'.Held c')
      (senders : ∀ s' ∈ w'.senders, s'.closed = false → s'.client ≠ c
        ∧ ∃ s ∈ w.senders, s.closed = false ∧ s.client = s'.client)

variable {settings : Settings} {w w' : SenderPool} {i j k c : Nat} {e : PublishStep}

/-! ## Phases -/

theorem phase_goto (w : SenderPool) (i j : Nat) (phase : PublishPhase) :
    (w.goto i phase).phase j = if i = j then (w.phase j).map fun _ => phase else w.phase j := by
  unfold SenderPool.phase goto
  dsimp only
  rw [List.getElem?_modify]
  split
  · cases w.publishes[j]? <;> rfl
  · cases w.publishes[j]? <;> rfl

/-- A publish that goes on without a client in hand, from where it had none. -/
theorem held_goto_of_not {phase : PublishPhase} (hbefore : ∀ c, w.phase i ≠ some (.closingSender (some c)))
    (hafter : ∀ c, phase ≠ .closingSender (some c)) (c : Nat) : (w.goto i phase).Held c ↔ w.Held c := by
  refine exists_congr fun j => ?_
  rw [phase_goto]
  split
  · rename_i hij
    subst hij
    refine iff_of_false (fun h => ?_) (hbefore c)
    obtain ⟨_, -, heq⟩ := Option.map_eq_some_iff.mp h
    exact hafter c heq
  · exact Iff.rfl

theorem sendersKept_of_eq (h : w'.senders = w.senders) : w.SendersKept w' := by
  intro s' hs' hopen
  exact ⟨s', h ▸ hs', hopen, rfl⟩

/-- Senders that are closed or have failed are no new open ones. -/
theorem sendersKept_of_modify {f : ServiceBusSender → ServiceBusSender}
    (hf : ∀ s, (f s).client = s.client ∧ ((f s).closed = false → s.closed = false))
    (h : w'.senders = w.senders.modify k f) : w.SendersKept w' := by
  intro s' hs' hopen
  rw [h] at hs'
  obtain ⟨j, hj⟩ := List.mem_iff_getElem?.mp hs'
  rw [List.getElem?_modify, Option.map_eq_map, Option.map_eq_some_iff] at hj
  obtain ⟨s, hs, rfl⟩ := hj
  refine ⟨s, List.mem_of_getElem? hs, ?_⟩
  split at hopen
  · rename_i hkj
    rw [if_pos hkj]
    exact ⟨(hf s).2 hopen, (hf s).1.symm⟩
  · rename_i hkj
    rw [if_neg hkj]
    exact ⟨hopen, rfl⟩

/-! ## Steps -/

theorem turns_lock (hphase : w.phase i = some .locking) (building : Building) :
    Turns settings w (.lock i building) (andThen i (w.getLocked settings building)) := by
  have hbefore : ∀ c, w.phase i ≠ some (.closingSender (some c)) := by
    intro c hc
    rw [hphase] at hc
    cases hc
  have hheld : ∀ {phase : PublishPhase}, (∀ c, phase ≠ .closingSender (some c)) → ∀ c,
      (w.goto i phase).Held c ↔ w.Held c := fun hafter => held_goto_of_not hbefore hafter
  unfold getLocked
  cases hsender : w.sbSender with
  | some k =>
      refine .quiet ?_ rfl rfl (hheld (by intro c h; cases h)) (sendersKept_of_eq rfl)
      intro _ hnone
      rw [hsender] at hnone
      cases hnone
  | none =>
      cases building with
      | clientRaises =>
          exact .quiet (fun _ _ => trivial) rfl rfl (hheld (by intro c h; cases h))
            (sendersKept_of_eq rfl)
      | senderRaises =>
          refine .made ⟨fun h _ _ => h, fun h => h hphase hsender⟩ rfl rfl
            (hheld (by intro c h; cases h)) fun s' hs' hopen => Or.inr ⟨s', hs', hopen, rfl⟩
      | built =>
          refine .made ⟨fun h _ _ => h, fun h => h hphase hsender⟩ rfl rfl
            (hheld (by intro c h; cases h)) ?_
          intro s' hs' hopen
          rcases List.mem_append.mp hs' with hold | hnew
          · exact Or.inr ⟨s', hold, hopen, rfl⟩
          · rw [List.mem_singleton.mp hnew]
            exact Or.inl rfl

/-- A client is closed, and the senders got from it with it. -/
theorem senders_closeClient_open {s' : ServiceBusSender} (hs' : s' ∈ (w.closeClient c).senders)
    (hopen : s'.closed = false) : s'.client ≠ c ∧ s' ∈ w.senders := by
  obtain ⟨s, hs, rfl⟩ := List.mem_map.mp hs'
  split at hopen
  · cases hopen
  · rename_i hne
    rw [if_neg hne]
    exact ⟨hne, hs⟩

theorem turns_reset {sender : Option Nat} (hphase : w.phase i = some (.resetting sender)) :
    Turns settings w (.reset i) (andThen i w.resetSender) := by
  have hbefore : ∀ c, w.phase i ≠ some (.closingSender (some c)) := by
    intro c hc
    rw [hphase] at hc
    cases hc
  have hheld : ∀ {phase : PublishPhase}, (∀ c, phase ≠ .closingSender (some c)) → ∀ c,
      (w.goto i phase).Held c ↔ w.Held c := fun hafter => held_goto_of_not hbefore hafter
  unfold resetSender
  cases hsender : w.sbSender with
  | some k =>
      have hkept : w.SendersKept
          ((({ w with sbSender := none, sbClient := none } : SenderPool).closeSender k).goto i
            (.closingSender w.sbClient)) :=
        sendersKept_of_modify (f := fun s => { s with closed := true })
          (fun _ => ⟨rfl, fun h => absurd h.symm Bool.false_ne_true⟩) rfl
      cases hclient : w.sbClient with
      | none =>
          rw [hclient] at hkept
          exact .quiet trivial rfl hclient.symm (hheld (by intro c h; cases h)) hkept
      | some c =>
          rw [hclient] at hkept
          refine .taken trivial rfl rfl ?_ hkept
          intro c'
          show (w.goto i (.closingSender (some c))).Held c' ↔ _
          constructor
          · rintro ⟨j, hj⟩
            rw [phase_goto] at hj
            split at hj
            · obtain ⟨_, -, heq⟩ := Option.map_eq_some_iff.mp hj
              cases heq
              exact Or.inr hclient
            · exact Or.inl ⟨j, hj⟩
          · rintro (⟨j, hj⟩ | hinstalled)
            · refine ⟨j, ?_⟩
              rw [phase_goto, if_neg]
              · exact hj
              · rintro rfl
                exact hbefore c' hj
            · rw [hclient] at hinstalled
              cases hinstalled
              refine ⟨i, ?_⟩
              rw [phase_goto, if_pos rfl, hphase]
              rfl
  | none =>
      unfold dropClient
      cases hclient : w.sbClient with
      | none =>
          exact .quiet trivial rfl hclient.symm (hheld (by intro c h; cases h)) (sendersKept_of_eq rfl)
      | some c =>
          refine .closed c trivial (Or.inl ⟨hclient, rfl⟩) rfl
            (fun c' => (hheld (by intro c h; cases h) c').mp)
            (fun c' h => Or.inr ((hheld (by intro c h; cases h) c').mpr h)) ?_
          intro s' hs' hopen
          obtain ⟨hne, hold⟩ := senders_closeClient_open hs' hopen
          exact ⟨hne, s', hold, hopen, rfl⟩

theorem turns_senderClosed {oldClient : Option Nat}
    (hphase : w.phase i = some (.closingSender oldClient)) :
    Turns settings w (.senderClosed i) (andThen i (w.dropClient oldClient)) := by
  cases oldClient with
  | none =>
      refine .quiet trivial rfl rfl ?_ (sendersKept_of_eq rfl)
      refine held_goto_of_not ?_ (by intro c h; cases h)
      intro c hc
      rw [dropClient, hphase] at hc
      cases hc
  | some c =>
      have hafter : ∀ j, ((w.closeClient c).goto i .closingClient).phase j
          = if i = j then (w.phase j).map fun _ => .closingClient else w.phase j :=
        fun j => phase_goto (w.closeClient c) i j _
      refine .closed c trivial (Or.inr ⟨⟨i, hphase⟩, rfl⟩) rfl ?_ ?_ ?_
      · rintro c' ⟨j, hj⟩
        refine ⟨j, ?_⟩
        rw [andThen, dropClient, hafter] at hj
        split at hj
        · obtain ⟨_, -, heq⟩ := Option.map_eq_some_iff.mp hj
          cases heq
        · exact hj
      · rintro c' ⟨j, hj⟩
        by_cases hij : i = j
        · subst hij
          rw [hphase] at hj
          cases hj
          exact Or.inl rfl
        · refine Or.inr ⟨j, ?_⟩
          rw [andThen, dropClient, hafter, if_neg hij]
          exact hj
      · intro s' hs' hopen
        obtain ⟨hne, hold⟩ := senders_closeClient_open hs' hopen
        exact ⟨hne, s', hold, hopen, rfl⟩

theorem turns_step (hs : step settings w e = some w') : Turns settings w e w' := by
  cases e with
  | publish event =>
      cases hs
      refine .quiet trivial rfl rfl ?_ (sendersKept_of_eq rfl)
      refine fun c => exists_congr fun j => ?_
      unfold SenderPool.phase
      dsimp only
      rw [List.getElem?_append]
      split
      · exact Iff.rfl
      · rename_i hlen
        rw [List.getElem?_eq_none (Nat.not_lt.mp hlen)]
        refine iff_of_false (fun h => ?_) (by intro h; cases h)
        obtain ⟨p, hp, hphase⟩ := Option.map_eq_some_iff.mp h
        rw [List.mem_singleton.mp (List.mem_of_getElem? hp)] at hphase
        cases hphase
  | get i =>
      simp only [step] at hs
      split at hs
      · rename_i hphase
        cases hs
        refine .quiet trivial rfl rfl ?_ (sendersKept_of_eq rfl)
        refine held_goto_of_not (by intro c h; rw [hphase] at h; cases h) ?_
        intro c h
        unfold getSender at h
        split at h
        · cases h
        · split at h <;> cases h
      · cases hs
  | lock i building =>
      simp only [step] at hs
      split at hs
      · rename_i hphase
        cases hs
        exact turns_lock hphase building
      · cases hs
  | send i ok =>
      simp only [step] at hs
      split at hs
      · rename_i event k hi
        have hphase : w.phase i = some (.sending k) := by
          rw [SenderPool.phase, hi]
          rfl
        have hheld : ∀ {phase : PublishPhase}, (∀ c, phase ≠ .closingSender (some c)) → ∀ c,
            (w.goto i phase).Held c ↔ w.Held c :=
          fun hafter => held_goto_of_not (by intro c h; rw [hphase] at h; cases h) hafter
        cases ok with
        | true =>
            cases hs
            exact .quiet trivial rfl rfl (hheld (by intro c h; cases h)) (sendersKept_of_eq rfl)
        | false =>
            cases hs
            exact .quiet trivial rfl rfl (hheld (by intro c h; cases h))
              (sendersKept_of_modify (f := fun s => { s with failed := true })
                (fun _ => ⟨rfl, id⟩) rfl)
      · cases hs
  | reset i =>
      simp only [step] at hs
      split at hs
      · rename_i sender hphase
        cases hs
        exact turns_reset hphase
      · cases hs
  | senderClosed i =>
      simp only [step] at hs
      split at hs
      · rename_i oldClient hphase
        cases hs
        exact turns_senderClosed hphase
      · cases hs
  | clientClosed i =>
      simp only [step] at hs
      split at hs
      · rename_i hphase
        cases hs
        exact .quiet trivial rfl rfl
          (held_goto_of_not (by intro c h; rw [hphase] at h; cases h) (by intro c h; cases h))
          (sendersKept_of_eq rfl)
      · cases hs

/-! ## Clients -/

theorem ClientOpen.lt (h : w.ClientOpen c) : c < w.clients.length := by
  obtain ⟨client, hclient, -⟩ := h
  exact (List.getElem?_eq_some_iff.mp hclient).1

theorem clientOpen_of_eq (h : w'.clients = w.clients) : w'.ClientOpen c ↔ w.ClientOpen c := by
  unfold ClientOpen
  rw [h]

/-- Making a client leaves the others. -/
theorem clientOpen_made {client : ServiceBusClient} (h : w'.clients = w.clients ++ [client])
    (hlt : c < w.clients.length) : w'.ClientOpen c ↔ w.ClientOpen c := by
  unfold ClientOpen
  rw [h, List.getElem?_append_left hlt]

/-- So does closing one, and that one is closed. -/
theorem clientOpen_closed (h : w'.clients = w.clients.modify k fun cl => { cl with closed := true }) :
    w'.ClientOpen c ↔ c ≠ k ∧ w.ClientOpen c := by
  unfold ClientOpen
  rw [h]
  constructor
  · rintro ⟨client, hclient, hopen⟩
    rw [List.getElem?_modify, Option.map_eq_map, Option.map_eq_some_iff] at hclient
    obtain ⟨before, hbefore, rfl⟩ := hclient
    split at hopen
    · cases hopen
    · rename_i hne
      exact ⟨fun heq => hne heq.symm, before, hbefore, hopen⟩
  · rintro ⟨hne, client, hclient, hopen⟩
    refine ⟨client, ?_, hopen⟩
    rw [List.getElem?_modify, hclient]
    exact congrArg some (if_neg (Ne.symm hne))

/-! ## Invariants -/

theorem connected_init : Connected {} where
  installed := by
    intro c hc
    cases hc
  held := by
    rintro c ⟨i, hi⟩
    cases hi
  senders := by
    intro s hs
    cases hs

theorem connected_step (h : Connected w) (hs : step settings w e = some w') : Connected w' := by
  cases turns_step hs with
  | quiet fine clients installed held senders =>
      refine ⟨?_, ?_, ?_⟩
      · intro c hc
        rw [clientOpen_of_eq clients, held]
        exact h.installed c (installed ▸ hc)
      · intro c hc
        rw [clients]
        exact h.held c ((held c).mp hc)
      · intro s' hs' hopen
        obtain ⟨s, hs, hsopen, hclient⟩ := senders s' hs' hopen
        rw [clientOpen_of_eq clients, ← hclient]
        exact h.senders s hs hsopen
  | made overwrites clients installed held senders =>
      have hnew : w'.ClientOpen w.clients.length :=
        ⟨_, by rw [clients]; exact List.getElem?_concat_length, rfl⟩
      refine ⟨?_, ?_, ?_⟩
      · intro c hc
        cases installed.symm.trans hc
        exact ⟨hnew, fun hheld => Nat.lt_irrefl _ (h.held _ ((held _).mp hheld))⟩
      · intro c hc
        rw [clients, List.length_append]
        exact Nat.lt_add_right _ (h.held c ((held c).mp hc))
      · intro s' hs' hopen
        rcases senders s' hs' hopen with hclient | ⟨s, hs, hsopen, hclient⟩
        · rw [hclient]
          exact hnew
        · have hbefore := h.senders s hs hsopen
          rw [← hclient, clientOpen_made clients hbefore.lt]
          exact hbefore
  | taken fine clients installed held senders =>
      refine ⟨?_, ?_, ?_⟩
      · intro c hc
        rw [installed] at hc
        cases hc
      · intro c hc
        rw [clients]
        rcases (held c).mp hc with hold | hinstalled
        · exact h.held c hold
        · exact (h.installed c hinstalled).1.lt
      · intro s' hs' hopen
        obtain ⟨s, hs, hsopen, hclient⟩ := senders s' hs' hopen
        rw [clientOpen_of_eq clients, ← hclient]
        exact h.senders s hs hsopen
  | closed c fine whose clients held others senders =>
      refine ⟨?_, ?_, ?_⟩
      · intro c' hc'
        rcases whose with ⟨-, hnone⟩ | ⟨hheld, hsame⟩
        · rw [hnone] at hc'
          cases hc'
        · obtain ⟨hopen, hnot⟩ := h.installed c' (hsame ▸ hc')
          refine ⟨(clientOpen_closed clients).mpr ⟨?_, hopen⟩, fun hlater => hnot (held c' hlater)⟩
          rintro rfl
          exact hnot hheld
      · intro c' hc'
        rw [clients, List.length_modify]
        exact h.held c' (held c' hc')
      · intro s' hs' hopen
        obtain ⟨hne, s, hs, hsopen, hclient⟩ := senders s' hs' hopen
        rw [clientOpen_closed clients]
        exact ⟨hne, hclient ▸ h.senders s hs hsopen⟩

theorem leaksNothing_step (hleaks : w.LeaksNothing) (hfine : w.OverwritesNone e)
    (hs : step settings w e = some w') : w'.LeaksNothing := by
  intro c' hopen
  cases turns_step hs with
  | quiet fine clients installed held senders =>
      rw [installed, held]
      exact hleaks c' ((clientOpen_of_eq clients).mp hopen)
  | made overwrites clients installed held senders =>
      rw [installed, held]
      rcases Nat.lt_or_ge c' w.clients.length with hlt | hge
      · rcases hleaks c' ((clientOpen_made clients hlt).mp hopen) with hinstalled | hheld
        · rw [overwrites.mpr hfine] at hinstalled
          cases hinstalled
        · exact Or.inr hheld
      · have hlt := hopen.lt
        rw [clients, List.length_append, List.length_singleton] at hlt
        exact Or.inl (congrArg some (by omega))
  | taken fine clients installed held senders =>
      refine Or.inr ((held c').mpr ?_)
      exact (hleaks c' ((clientOpen_of_eq clients).mp hopen)).symm
  | closed c fine whose clients held others senders =>
      obtain ⟨hne, hbefore⟩ := (clientOpen_closed clients).mp hopen
      rcases hleaks c' hbefore with hinstalled | hheld
      · rcases whose with ⟨hc, -⟩ | ⟨-, hsame⟩
        · rw [hc] at hinstalled
          cases hinstalled
          exact absurd rfl hne
        · exact Or.inl (hsame.trans hinstalled)
      · rcases others c' hheld with heq | hlater
        · exact absurd heq hne
        · exact Or.inr hlater

/-- What is overwritten is lost. -/
theorem overwritesNone_step (h : Connected w) (hs : step settings w e = some w')
    (hleaks : w'.LeaksNothing) : w.OverwritesNone e := by
  cases turns_step hs with
  | quiet fine | taken fine | closed c fine => exact fine
  | made overwrites clients installed held senders =>
      refine overwrites.mp ?_
      cases hold : w.sbClient with
      | none => rfl
      | some c =>
          obtain ⟨hopen, hnot⟩ := h.installed c hold
          have hlt := hopen.lt
          rcases hleaks c ((clientOpen_made clients hlt).mpr hopen) with hinstalled | hheld
          · rw [installed] at hinstalled
            cases hinstalled
            exact absurd hlt (Nat.lt_irrefl _)
          · exact absurd ((held c).mp hheld) hnot

/-! ## Shutdown -/

theorem allClosed_of (hclients : ∀ c, ¬ w.ClientOpen c)
    (hsenders : ∀ s ∈ w.senders, s.closed = false → w.ClientOpen s.client) : AllClosed w where
  clients := by
    intro client hmem
    obtain ⟨c, hc⟩ := List.mem_iff_getElem?.mp hmem
    cases hclosed : client.closed with
    | true => rfl
    | false => exact absurd ⟨client, hc, hclosed⟩ (hclients c)
  senders := by
    intro s hs
    cases hclosed : s.closed with
    | true => rfl
    | false => exact absurd (hsenders s hs hclosed) (hclients _)

/-- Closing the installed client closes all there is, if there is no other. -/
theorem allClosed_closeShared (h : Connected w) (hleaks : w.LeaksNothing) (hheld : ∀ c, ¬ w.Held c) :
    AllClosed w.closeShared := by
  have honly : ∀ c, w.ClientOpen c → w.sbClient = some c :=
    fun c hopen => (hleaks c hopen).resolve_right (hheld c)
  -- whether there is a sender to close or not
  have hsender : ∀ v : SenderPool, v.clients = w.clients → v.sbClient = w.sbClient → w.SendersKept v →
      AllClosed (match v.sbClient with
        | some c => { v.closeClient c with sbClient := none }
        | none => v) := by
    intro v hclients hinstalled hkept
    cases hclient : v.sbClient with
    | none =>
        have hnone : ∀ c, ¬ v.ClientOpen c := by
          intro c hopen
          have hsome := honly c ((clientOpen_of_eq hclients).mp hopen)
          rw [← hinstalled, hclient] at hsome
          cases hsome
        refine allClosed_of hnone fun s' hs' hopen => ?_
        obtain ⟨s, hs, hsopen, heq⟩ := hkept s' hs' hopen
        rw [clientOpen_of_eq hclients, ← heq]
        exact h.senders s hs hsopen
    | some c =>
        dsimp only
        have hafter : ∀ c', ¬ ({ v.closeClient c with sbClient := none } : SenderPool).ClientOpen c' := by
          intro c' hopen
          obtain ⟨hne, hbefore⟩ := (clientOpen_closed (w := v) rfl).mp hopen
          have hsome := honly c' ((clientOpen_of_eq hclients).mp hbefore)
          rw [← hinstalled, hclient] at hsome
          cases hsome
          exact hne rfl
        refine allClosed_of hafter fun s' hs' hopen => ?_
        obtain ⟨hne, hmem⟩ := senders_closeClient_open hs' hopen
        obtain ⟨s, hs, hsopen, heq⟩ := hkept s' hmem hopen
        refine (clientOpen_closed (w := v) rfl).mpr ⟨hne, (clientOpen_of_eq hclients).mpr ?_⟩
        rw [← heq]
        exact h.senders s hs hsopen
  unfold closeShared
  cases hk : w.sbSender with
  | none => exact hsender w rfl rfl (sendersKept_of_eq rfl)
  | some k =>
      exact hsender { w.closeSender k with sbSender := none } rfl rfl
        (sendersKept_of_modify (f := fun s => { s with closed := true })
          (fun _ => ⟨rfl, fun h => absurd h.symm Bool.false_ne_true⟩) rfl)

instance (w : SenderPool) : (e : PublishStep) → Decidable (w.OverwritesNone e)
  | .lock i .clientRaises | .lock i .built | .lock i .senderRaises => by
      unfold OverwritesNone
      infer_instance
  | .publish _ | .get _ | .send _ _ | .reset _ | .senderClosed _ | .clientClosed _ => .isTrue trivial

end SenderPool

end Microservices.Tasks
