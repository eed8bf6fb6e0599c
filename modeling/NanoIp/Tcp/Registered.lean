import NanoIp.Tcp.Listed

/-!
# The list is the open handles

A handle leaves `tcp_module.handles` only as it is closed and enters the list as it
is opened, so in every run, whatever the callbacks do, the list holds exactly the
handles that are not closed.
-/
namespace NanoIp.Tcp

variable {n : Nat}

/-- Every handle that is not closed stands in the list. -/
def Covers (m : Stack n) : Prop := ∀ k, (m.mem k).state ≠ .closed → k ∈ m.registered

theorem Unregisters.covers {m m' : Stack n} (hu : Unregisters m m') (ht : Tidy m) (hc : Covers m)
    (hs : ∀ k, (m.mem k).state = .closed → (m'.mem k).state = .closed) : Covers m' := by
  intro k hk
  have hin : k ∈ m.registered := hc k fun hcl => hk (hs k hcl)
  cases hu with
  | nothing hl => rwa [hl.registered_eq]
  | handle h hl hcl =>
    have hne : k ≠ h := by
      rintro rfl
      exact hk hcl
    rw [hl.registered_eq, ht.removeHandle_registered]
    exact (List.mem_erase_of_ne hne).mpr hin

variable {x y : Stack n × Pc n} {i : Input n}

theorem step_closed (hs : step x i = some y) {h : Fin n} (hc : (x.1.mem h).state = .closed)
    (hi : ¬ Opens i h) : (y.1.mem h).state = .closed := by
  have hg := step_goes hs h
  rw [hc] at hg
  generalize (y.1.mem h).state = s at hg ⊢
  cases hg with
  | same | closed => rfl
  | opened localPort readings ho => exact absurd ⟨localPort, readings, ho⟩ hi
  | finWait _ hx => rcases hx with hx | hx <;> cases hx

theorem covers_step (ht : Tidy x.1) (hc : Covers x.1) (hs : step x i = some y) : Covers y.1 := by
  by_cases hi : ∃ h, Opens i h
  · obtain ⟨h, localPort, readings, rfl⟩ := hi
    have hother {k : Fin n} (hkh : k ≠ h) (hk : (x.1.mem k).state = .closed) : (y.1.mem k).state =
        .closed := by
      refine step_closed hs hk ?_
      rintro ⟨_, _, he⟩
      cases he
      exact hkh rfl
    obtain ⟨ret, ho⟩ := step_open hs
    rcases open_links ho with ⟨-, hl, hfailed⟩ | ⟨rfl, -⟩
    · refine (Unregisters.nothing hl).covers ht hc fun k hk => ?_
      by_cases hkh : k = h
      · rw [hkh] at hk ⊢
        exact hfailed hk
      · exact hother hkh hk
    · intro k hk
      rw [(open_registered ht ho).1]
      by_cases hkh : k = h
      · rw [hkh]
        exact List.mem_cons_self
      · exact List.mem_cons_of_mem _ (hc k fun hcl => hk (hother hkh hcl))
  · have hno := not_exists.mp hi
    exact (step_links hno hs).covers ht hc fun k hk => step_closed hs hk (hno k)

/-- In every run the list ends, holds no handle twice and holds exactly the handles
that are not closed; an open that fails leaves its head and its pointers. -/
theorem registered_iff_open {ok : Stack n × Pc n → Input n → Prop} (packets : PacketId → Packet)
    (port : BitVec 16) (time : Nat) (hr : Lib.Reach step ok (initial n packets port time) x) :
    (∃ l, Lib.Linked (fun h => (x.1.mem h).next) x.1.handles l ∧ l.Nodup ∧
      ∀ h, h ∈ l ↔ (x.1.mem h).state ≠ .closed) ∧
    ∀ (h : Fin n) (localPort : BitVec 16) (readings : List Nat) (m' : Stack n) (ret : Err),
      open_ x.1 h localPort readings = some (m', ret) → ret ≠ .success →
      m'.handles = x.1.handles ∧ ∀ k, (m'.mem k).next = (x.1.mem k).next := by
  constructor
  · have hinv : Tidy x.1 ∧ Covers x.1 := by
      refine hr.invariant (I := fun x => Tidy x.1 ∧ Covers x.1) ?_ fun _ _ _ hi _ hs =>
        ⟨tidy_step hi.1 hs, covers_step hi.1 hi.2 hs⟩
      exact ⟨tidy_initial packets port time, fun _ hk => absurd rfl hk⟩
    obtain ⟨hlink, hnd, hno⟩ := hinv.1.registered
    exact ⟨x.1.registered, hlink, hnd, fun h => ⟨fun hin hc => hno h hin hc, hinv.2 h⟩⟩
  · intro h localPort readings m' ret ho hret
    rcases open_links ho with ⟨-, hl, -⟩ | ⟨hok, -⟩
    · exact ⟨hl.handles, hl.next⟩
    · exact absurd hok hret

/-- Of two listening handles one is closed; the other keeps its port from being opened again. -/
theorem registered_iff_open_two : ∃ x : Stack 2 × Pc 2, (x.1.mem 0).state = .closed ∧
    (x.1.mem 1).state = .listen ∧
    (∃ l, Lib.Linked (fun h => (x.1.mem h).next) x.1.handles l ∧ l.Nodup ∧
      ∀ h, h ∈ l ↔ (x.1.mem h).state ≠ .closed) ∧
    ∃ r, open_ x.1 0 5001#16 [] = some r ∧ r.2 = .addressInUse ∧ r.1.handles = x.1.handles ∧
      ∀ k, (r.1.mem k).next = (x.1.mem k).next := by
  obtain ⟨x, hr, hx⟩ := Lib.exists_of_runInputs step Lib.anyStep
    (initial 2 (fun _ => blankPacket) portPoolStart 7)
    [.open_ 0 5000#16 [], .open_ 1 5001#16 [], .listen 0, .listen 1, .close 0 (transmitting 0)]
    (fun x => (x.1.mem 0).state = .closed ∧ (x.1.mem 1).state = .listen ∧
      (open_ x.1 0 5001#16 []).any fun r => r.2 = .addressInUse) (by decide)
  obtain ⟨hclosed, hlisten, ho⟩ := of_decide_eq_true hx
  obtain ⟨r, hr₁, hr₂⟩ := (Option.any_eq_true _ _).mp ho
  have hret : r.2 = .addressInUse := of_decide_eq_true hr₂
  obtain ⟨hlist, hfailed⟩ := registered_iff_open _ _ _ hr
  refine ⟨x, hclosed, hlisten, hlist, r, hr₁, hret, hfailed 0 5001#16 [] r.1 r.2 hr₁ ?_⟩
  rw [hret]
  exact nofun

end NanoIp.Tcp
