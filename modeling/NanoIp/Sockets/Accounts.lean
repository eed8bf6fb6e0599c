import NanoIp.Sockets.Family

/-!
# The accounts of a listening socket

The accounts hold as long as no child ends: neither its release nor the end of its
connection updates count and lists of its parent as the other would need it.
-/
namespace NanoIp.Sockets

variable {n k : Nat} {T : Type}

section Runs

variable [DecidableEq T]

/-- The socket whose connection an input ends, and the one whose peer ends its half. -/
def Input.ended : Input n T → Option (Fin n)
  | .change i c => if c.ends then some i else none
  | _ => none
def Input.finished : Input n T → Option (Fin n)
  | .change i .fin => some i
  | _ => none

/-- No socket with a parent or with children is released, no connection of a child
ends, and no peer ends its half of a connection that is still to be returned. -/
def KeepsAccounts (x : System n k T) (input : Input n T) : Prop :=
  (∀ i, input.released x.module = some i →
    (x.module.sockets i).parent = none ∧ ∀ c, (x.module.sockets c).parent ≠ some i) ∧
  (∀ i, input.ended = some i → (x.module.sockets i).parent = none) ∧
  ∀ i, input.finished = some i → ∀ p, (x.module.sockets i).parent = some p → i ∉ x.module.accepts p

omit [DecidableEq T] in
instance (x : System n k T) (input : Input n T) : Decidable (KeepsAccounts x input) :=
  inferInstanceAs (Decidable ((∀ _ : Fin n, _ → _ ∧ ∀ _ : Fin n, _) ∧ (∀ _ : Fin n, _ → _) ∧
    ∀ _ : Fin n, _ → ∀ _ : Fin n, _ → _))

/-- What a section of `NANO_IP_SOCKET_Accept` comes to. -/
def System.acceptPass (x : System n k T) : Input n T → Option (Pass (Accepted n))
  | .accept t socketId =>
    match x.tasks t with
    | .idle => some (accept x.module socketId).2
    | _ => none
  | .acceptWake t ret =>
    match x.tasks t with
    | .accepting i => (wakeOn x.module i acceptMask ret).map fun m => (acceptTurn m i).2
    | _ => none
  | _ => none

/-- The accounts of the sockets: a socket counts its children; the lists end, no child
is twice in them, and there are only children in them; and what Accept returns has an
established connection. -/
structure Accounts (x : System n k T) : Prop where
  count : ∀ p, (x.module.sockets p).childCount.toNat = (Finset.univ.filter fun c =>
    (x.module.sockets c).isFree = false ∧ (x.module.sockets c).parent = some p).card
  pending : ∀ p, Lib.Linked (fun j => (x.module.sockets j).next) (x.module.sockets p).acceptPending
    (x.module.pending p)
  accepted : ∀ p, Lib.Linked (fun j => (x.module.sockets j).next) (x.module.sockets p).accepted
    (x.module.accepts p)
  once : ∀ p, (x.module.pending p ++ x.module.accepts p).Nodup
  children : ∀ p c, c ∈ x.module.pending p ++ x.module.accepts p →
    (x.module.sockets c).isFree = false ∧ (x.module.sockets c).parent = some p
  returns : ∀ input ret client endPoint, x.acceptPass input =
    some (.returns ⟨ret, some (client, endPoint)⟩) →
    (x.module.sockets client).isFree = false ∧ (x.module.sockets client).tcp.state = .established

omit [DecidableEq T] in
theorem Family.accounts {x : System n k T} (h : Family x.module) : Accounts x where
  count p := by
    have hchildren : (Finset.univ.filter fun c =>
        (x.module.sockets c).isFree = false ∧ (x.module.sockets c).parent = some p) =
          x.module.children p := by
      ext c
      simp only [Module.children, Finset.mem_filter, Finset.mem_univ, true_and,
        and_iff_right_iff_imp]
      exact fun hc => (h.alive c p hc).1
    rw [hchildren]
    exact h.count p
  pending p := by
    obtain ⟨P, A, hl⟩ := h.lists p
    rw [hl.pending_eq]
    exact hl.pending
  accepted p := by
    obtain ⟨P, A, hl⟩ := h.lists p
    rw [hl.accepts_eq]
    exact hl.accepted
  once p := by
    obtain ⟨P, A, hl⟩ := h.lists p
    rw [hl.pending_eq, hl.accepts_eq]
    exact hl.nodup
  children p c hc := by
    obtain ⟨P, A, hl⟩ := h.lists p
    rw [hl.pending_eq, hl.accepts_eq] at hc
    have hp := hl.children c hc
    exact ⟨(h.alive c p hp).1, hp⟩
  returns input ret client endPoint hret := by
    cases input with
    | accept t socketId =>
      cases ht : x.tasks t <;> simp only
        [System.acceptPass, ht, reduceCtorEq, Option.some.injEq] at hret
      unfold accept at hret
      cases hi : x.module.get socketId with
      | none => simp [hi] at hret
      | some i =>
        simp only [hi] at hret
        split_ifs at hret
        · exact h.returned hret
        · simp at hret
    | acceptWake t r =>
      cases ht : x.tasks t <;> simp only
        [System.acceptPass, ht, reduceCtorEq, Option.map_eq_some_iff] at hret
      obtain ⟨m, hm, hret⟩ := hret
      have hs := wakeOn_same Family.blind_kin.flags hm
      obtain ⟨hfree, hest⟩ := (h.congr hs).returned hret
      exact ⟨(congrArg Kin.isFree (hs client)).symm.trans hfree,
        (congrArg Kin.state (hs client)).symm.trans hest⟩
    | _ => cases hret

variable {x y : System n k T} {input : Input n T}

theorem family_step (h : Family x.module) (hok : KeepsAccounts x input)
    (hs : step x input = some y) :
    Family y.module := by
  by_cases hp : input.Plain
  · exact h.congr (plain_same Family.blind_kin hp (step_move hs))
  · cases step_move hs with
    | allocate type ret => exact (h.allocated type ret).congr (Same.of_sockets rfl)
    | release socketId fin i hi =>
      have hsame := cancelRequest_same Family.blind_kin.flags x.module x.requests i
      refine Family.congr ?_ (Same.of_sockets (x.release_sockets i fin))
      refine (h.congr hsame).released fun hr => ?_
      have hr' : Releases (x.module.sockets i) := fun htype hidle =>
        hr ((congrArg Kin.type (hsame i)).trans htype) ((congrArg Kin.state (hsame i)).trans hidle)
      obtain ⟨hpar, hchild⟩ := hok.1 i (by simp [Input.released, hi, hr'])
      refine ⟨(congrArg Kin.parent (hsame i)).trans hpar, fun c hc => hchild c ?_⟩
      exact (congrArg Kin.parent (hsame c)).symm.trans hc
    | listen socketId max => exact (h.listen socketId max).congr (Same.of_sockets rfl)
    | connect socketId endPoint ret =>
        exact (h.connect socketId endPoint ret).congr (Same.of_sockets rfl)
    | accept t socketId i ht hi =>
      refine Family.congr ?_ (Same.of_sockets (x.setAccept_sockets t i _))
      unfold Sockets.accept
      simp only [hi]
      split_ifs
      · exact h.acceptTurn i
      · exact h
    | acceptWake t ret i m ht hm =>
      exact ((h.congr (wakeOn_same Family.blind_kin.flags hm)).acceptTurn i).congr
        (Same.of_sockets (x.setAccept_sockets t i _))
    | accepting i peer ret answered ht hst =>
      exact (h.acceptConnection i peer ret answered).congr (Same.of_sockets rfl)
    | data i p z ht hst hz =>
      unfold System.takePacket at hz
      split_ifs at hz
      obtain rfl := Option.some.inj hz
      have hdata : Family (changeConnection x.module i (.data p)) :=
        h.changed ht (decide_eq_true hst) nofun nofun
      exact hdata.congr (Same.of_sockets rfl)
    | change i c ht hc hd =>
      refine Family.congr ?_ (Same.of_sockets (m := changeConnection x.module i c) rfl)
      refine h.changed ht hc (fun he => hok.2.1 i (by simp [Input.ended, he]))
        fun hfin p P A hl hi => ?_
      subst hfin
      refine hok.2.2 i rfl p (hl.children i (List.mem_append_right P hi)) ?_
      rw [hl.accepts_eq]
      exact hi
    | bindUdp | setNonBlocking | receiveFrom | receiveWake | takeFlags | poll | pollWake | request
    | arpResponse | datagram => exact absurd trivial hp

end Runs

/-- The accounts are right in every run in which no child ends, no parent is released
before its children, and no peer leaves before its connection is returned. -/
theorem accounts_kept [DecidableEq T] (pool : List PacketId) (x : System n k T)
    (hr : Lib.Reach step KeepsAccounts (System.initial n k T pool) x) : Accounts x := by
  have h := hr.invariant (I := fun x => Family x.module) Family.init fun _ _ _ h hok hs =>
    family_step h hok hs
  exact h.accounts

/-- A listening socket with two clients, of which one is accepted. -/
theorem accounts_kept_listening :
    ∃ x : System 3 1 Unit, Accounts x ∧ (x.module.sockets 0).childCount = 2#32 ∧
    x.module.pending 0 = [2] ∧ x.module.accepts 0 = [1] := by
  obtain ⟨x, hr, hx⟩ := Lib.exists_of_runInputs step KeepsAccounts (System.initial 3 1 Unit [])
    [.allocate .tcp .success, .listen 0#32 2#32,
      .accepting ⟨0, Nat.succ_pos 2⟩ ⟨0x0A000002#32, 80#16⟩ .success true,
      .accepting ⟨0, Nat.succ_pos 2⟩ ⟨0x0A000003#32, 80#16⟩ .success true,
      .change ⟨1, Nat.one_lt_succ_succ 1⟩ .accepted]
    (fun x => (x.module.sockets 0).childCount = 2#32 ∧ x.module.pending 0 = [2] ∧
      x.module.accepts 0 = [1])
    (by decide)
  exact ⟨x, accounts_kept [] x hr, of_decide_eq_true hx⟩

/-- A handshake fails: its socket is released, and the count of the parent stays. -/
theorem acceptFailed_miscounted : ¬ ∀ (pool : List PacketId) (x : System 2 1 Unit),
    Lib.Reach step Lib.anyStep (System.initial 2 1 Unit pool) x → Accounts x := by
  intro hall
  obtain ⟨x, hr, hx⟩ := Lib.exists_of_runInputs step Lib.anyStep (System.initial 2 1 Unit [])
    (listening ++ [.change 1 .acceptFailed])
    (fun x => (x.module.sockets 0).childCount.toNat ≠ (Finset.univ.filter fun c : Fin 2 =>
      (x.module.sockets c).isFree = false ∧ (x.module.sockets c).parent = some 0).card) (by decide)
  exact of_decide_eq_true hx ((hall [] x hr).count 0)

end NanoIp.Sockets
