import NanoIp.Arp.Coding
import NanoIp.Arp.Resolve

/-!
# The exchange of two nodes

A node asks for the MAC address of another one. The other learns who asks and answers,
and the answer calls back every request for the address and is learned; a third node that
sees the question does nothing. The drivers can break it in one way only: a frame that
one of them pads behind its check sequence is refused by the code of the other.
-/
namespace NanoIp.Arp

variable {c n : Nat}

section Learning

variable {entries : Table c} {type : EntryType} {ip : Ipv4Address} {mac : MacAddress}
  {now : BitVec 32}

/-- A slot is free or holds a dynamic entry. -/
def HasRoom (entries : Table c) : Prop :=
  ∃ i, (entries i).entryType = .unused ∨ (entries i).entryType = .dynamic

instance (entries : Table c) : Decidable (HasRoom entries) := inferInstanceAs (Decidable (∃ _, _))

theorem scan_keeps (entries : Table c) (type : EntryType) (ip : Ipv4Address) (is : List (Fin c)) :
    ∀ s : Scan c, s.entry ≠ none → (scan entries type ip is s).entry ≠ none := by
  induction is with
  | nil => intro s hs; exact hs
  | cons i is ih =>
    intro s hs
    rw [scan]
    split_ifs
    · simp [Scan.entry]
    · refine ih _ ?_
      rcases s with ⟨_ | _, _ | _, _ | _⟩ <;> simp [Scan.entry] at hs ⊢
    · exact ih _ hs
    · refine ih _ ?_
      rcases s with ⟨_ | _, _ | _, _ | _⟩ <;> simp [Scan.entry] at hs ⊢

/-- A scan finds a slot if there is one that is free or dynamic. -/
theorem scan_finds {i : Fin c}
    (hi : (entries i).entryType = .unused ∨ (entries i).entryType = .dynamic) (is : List (Fin c))
    (hin : i ∈ is) : ∀ s : Scan c, (scan entries type ip is s).entry ≠ none := by
  induction is with
  | nil => cases hin
  | cons k is ih =>
    intro s
    rcases List.mem_cons.mp hin with rfl | hin
    · rw [scan]
      split_ifs with hu hk ho
      · simp [Scan.entry]
      · refine scan_keeps _ _ _ _ _ ?_
        rcases s with ⟨_ | _, _ | _, _ | _⟩ <;> simp [Scan.entry]
      · -- the slot is dynamic, so an older one is known already
        have hdynamic : (entries i).entryType = .dynamic := hi.resolve_left hu
        refine scan_keeps _ _ _ _ _ ?_
        rcases s with ⟨_ | _, _ | _, _ | _⟩ <;> simp [Scan.entry, hdynamic] at ho ⊢
      · refine scan_keeps _ _ _ _ _ ?_
        rcases s with ⟨_ | _, _ | _, _ | _⟩ <;> simp [Scan.entry]
    · rw [scan]
      split_ifs
      · simp [Scan.entry]
      · exact ih hin _
      · exact ih hin _
      · exact ih hin _

/-- The table has learned an address: one of its slots has been written with it. Unless it
held the address in two slots before, lookups now find it. -/
structure Learned (entries entries' : Table c) (ip : Ipv4Address) (mac : MacAddress)
    (now : BitVec 32) : Prop where
  written : ∃ i, entries' = Function.update entries i ⟨.dynamic, mac, ip, now⟩
  found : (∀ i j, entries.has .dynamic ip i → entries.has .dynamic ip j → i = j) →
    (search entries' ip now).1 = some mac

theorem search_only {i : Fin c} (hi : entries i = ⟨.dynamic, mac, ip, now⟩)
    (honly : ∀ j, (entries j).isFor ip = true → j = i) : (search entries ip now).1 = some mac := by
  have hfor : (entries i).isFor ip = true := by simp [hi, Entry.isFor]
  have hvalid : (entries i).isValid now = true := by
    rw [hi, Entry.isValid, BitVec.sub_self]
    rfl
  have hfind : (List.finRange c).reverse.find? (fun j => (entries j).isFor ip) = some i :=
    find?_last.mpr ⟨hfor, fun j hj => by
      rw [Bool.eq_false_iff]
      exact fun h => absurd (honly j h) (ne_of_gt hj)⟩
  rw [search, hfind]
  dsimp only
  rw [if_pos hvalid, hi]

/-- An addition is learned where there is room and no static entry of the address. -/
theorem learned_addEntry (hip : ip ≠ 0#32) (hroom : HasRoom entries)
    (hstatic : ∀ i, ¬ entries.has .static ip i) (mac : MacAddress) (now : BitVec 32) :
    Learned entries (addEntry entries .dynamic mac ip now).2 ip mac now := by
  obtain ⟨r, hr⟩ := hroom
  unfold addEntry
  rw [if_pos hip]
  cases hs : (scan entries .dynamic ip (List.finRange c) ⟨none, none, none⟩).entry with
  | none => exact absurd hs (scan_finds hr _ (List.mem_finRange r) _)
  | some i =>
    refine ⟨⟨i, rfl⟩, fun hunique => search_only (Function.update_self _ _ _) fun j hj => ?_⟩
    by_contra hji
    dsimp only at hj
    rw [Function.update_of_ne hji] at hj
    have hdynamic : entries.has .dynamic ip j := by
      simp only [Entry.isFor, ne_eq, Bool.and_eq_true, decide_eq_true_eq] at hj
      cases ht : (entries j).entryType with
      | unused => simp [ht] at hj
      | static => exact absurd ⟨ht, hj.2⟩ (hstatic j)
      | dynamic => exact ⟨ht, hj.2⟩
    -- the addition takes over the lowest entry of the address, and this one is alone
    have htaken : (entries j).isTaken .dynamic ip = true :=
      (isTaken_iff (by decide)).mpr (.inl hdynamic)
    have hcorr := scan_corresponding entries .dynamic ip (List.finRange c) ⟨none, none, none⟩ rfl
    cases hf : (List.finRange c).find? fun k => (entries k).isTaken .dynamic ip with
    | none =>
      rw [find?_none.mp hf j] at htaken
      cases htaken
    | some k =>
      rw [hf] at hcorr
      simp only [Scan.entry, hcorr] at hs
      obtain rfl := Option.some.inj hs
      have hk : entries.has .dynamic ip k :=
        ((isTaken_iff (by decide)).mp (find?_first.mp hf).1).elim id id
      exact hji (hunique j k hdynamic hk)

theorem search_entries (entries : Table c) (ip : Ipv4Address) (now : BitVec 32) (k : Fin c) :
    (search entries ip now).2 k = entries k ∨ ((search entries ip now).2 k).entryType =
      .unused := by
  unfold search
  split
  · next i _ =>
    split_ifs
    · exact .inl rfl
    · by_cases hk : k = i
      · subst hk
        exact .inr (by simp)
      · exact .inl (by simp [hk])
  · exact .inl rfl

theorem HasRoom.search (h : HasRoom entries) (ip : Ipv4Address) (now : BitVec 32) :
    HasRoom (search entries ip now).2 := by
  obtain ⟨k, hk⟩ := h
  refine ⟨k, ?_⟩
  rcases search_entries entries ip now k with hsame | hunused
  · rwa [hsame]
  · exact .inl hunused

theorem search_no_static {ip' : Ipv4Address} (h : ∀ i, ¬ entries.has .static ip' i)
    (ip : Ipv4Address) (now : BitVec 32) (k : Fin c) :
    ¬ Table.has (search entries ip now).2 .static ip' k := by
  rintro ⟨hstatic, hk⟩
  rcases search_entries entries ip now k with hsame | hunused
  · rw [hsame] at hstatic hk
    exact h k ⟨hstatic, hk⟩
  · rw [hunused] at hstatic
    cases hstatic

theorem search_invalid (h : ∀ i, (entries i).isFor ip = true → (entries i).isValid now = false) :
    (search entries ip now).1 = none := by
  unfold search
  split
  · next i hi =>
    have hfor := h i (by simpa using List.find?_some hi)
    rw [if_neg (by rw [hfor]; exact Bool.false_ne_true)]
  · rfl

end Learning

section Exchange

variable {c' n' : Nat}

/-- Every allocation and hand-off succeeds. -/
def Link.Works (link : Link) : Prop := (∃ p, link.alloc = .ok p) ∧ link.driver = .ok ()

/-- A table that can learn an address. -/
structure CanLearn (entries : Table c) (ip : Ipv4Address) : Prop where
  room : HasRoom entries
  noStatic : ∀ i, ¬ entries.has .static ip i

/-- A node that has to ask for an address, with an idle request: no entry of the address
is valid, a static one always is. -/
structure Asks (m : Module c n) (r : Fin n) (l : List (Fin n)) (ip : Ipv4Address) (link : Link)
    (now : BitVec 32) :
    Prop where
  listed : Listed m l
  idle : r ∉ l
  unknown : ∀ i, (m.entries i).isFor ip = true → (m.entries i).isValid now = false
  room : HasRoom m.entries
  works : link.Works

variable {m : Module c n} {r : Fin n} {l : List (Fin n)} {ip : Ipv4Address} {link : Link}
  {now : BitVec 32}

theorem Asks.noStatic (h : Asks m r l ip link now) (i : Fin c) : ¬ m.entries.has .static ip i := by
  rintro ⟨hstatic, hi⟩
  have hinvalid := h.unknown i (by simp [Entry.isFor, hstatic, hi])
  simp [Entry.isValid, hstatic] at hinvalid

/-- The question is handed to the driver, and the request is pending in front of the
others. -/
theorem Asks.question (h : Asks m r l ip link now) (netIf : NetIf) :
    ∃ p, (request m netIf r ip link now).answer = .pending ∧
      (request m netIf r ip link now).handed =
        some (sentPacket netIf (requestHeader netIf) (requestFrame netIf ip) p) ∧
      Listed (request m netIf r ip link now).module (r :: l) ∧
      ((request m netIf r ip link now).module.mem r).ipv4Address = ip ∧
      CanLearn (request m netIf r ip link now).module.entries ip := by
  obtain ⟨⟨p, halloc⟩, hdriver⟩ := h.works
  have hsearch := search_invalid h.unknown
  have hasked : (request m netIf r ip link now).answer = .pending ∧
      (request m netIf r ip link now).handed =
        some (sentPacket netIf (requestHeader netIf) (requestFrame netIf ip) p) := by
    unfold request
    split
    · next hs =>
      rw [hs] at hsearch
      cases hsearch
    · simp only [halloc, hdriver, and_self]
  rcases request_cases m netIf r ip link now with ⟨hanswer, -⟩ | ⟨-, hhead, hmem⟩
  · exact absurd hasked.1 hanswer
  refine ⟨p, hasked.1, hasked.2, h.listed.push h.idle rfl hhead hmem, ?_, ?_⟩
  · rw [hmem, Function.update_self]
  · rw [request_entries]
    exact ⟨h.room.search ip now, search_no_static h.noStatic ip now⟩

theorem rxFrame_request {netIf : NetIf} {q : Packet} (hcount : ¬ q.count < packetSizeIpv4)
    (hvalid : (decode q).isValid = true) (hop : (decode q).operation = opRequest) :
    rxFrame m netIf q link now = handleRequest m netIf (decode q) link now := by
  rw [rxFrame, if_neg hcount]
  dsimp only
  rw [if_pos hvalid, if_pos hop]

theorem rxFrame_response {netIf : NetIf} {q : Packet} (hcount : ¬ q.count < packetSizeIpv4)
    (hvalid : (decode q).isValid = true) (hop : (decode q).operation = opResponse) :
    rxFrame m netIf q link now = handleResponse m netIf (decode q) now := by
  rw [rxFrame, if_neg hcount]
  dsimp only
  rw [if_pos hvalid, if_neg (by rw [hop]; decide), if_pos hop]

/-- What the node that is asked does: it learns who asks and hands its answer to the
driver. -/
theorem handleRequest_target (m : Module c n) (now : BitVec 32) {netIf : NetIf} {request : Frame}
    (hworks : link.Works) (htarget : netIf.ipv4Address = request.targetProtoAddress) :
    ∃ p, handleRequest m netIf request link now =
      ⟨m.addEntry .dynamic request.senderHwAddress request.senderProtoAddress now, [],
        some (sentPacket netIf (responseHeader netIf request) (responseFrame netIf request) p),
          .success⟩ := by
  obtain ⟨⟨p, halloc⟩, hdriver⟩ := hworks
  refine ⟨p, ?_⟩
  rw [handleRequest, if_pos htarget]
  simp only [halloc, hdriver]

/-- The answer calls back, with success, every request for the address and no other one,
each with the address it has found, and is learned. -/
def Concludes (a : Receiver c n) (peer : NetIf) (q : Packet) : Prop :=
  ∃ received, a.rxFrame q = .ok received ∧
    received.calls = a.module.pending.filter
      (fun r => (a.module.mem r).ipv4Address = peer.ipv4Address) ∧
    (∀ r ∈ received.calls, (received.module.mem r).macAddress = peer.macAddress) ∧
    Learned a.module.entries received.module.entries peer.ipv4Address peer.macAddress a.now

/-- The question is learned and answered at `b`, and every reception of the answer
concludes the exchange at `a`. -/
def Exchanges (a : Receiver c n) (b : Receiver c' n') (q : Packet) : Prop :=
  ∃ received answer, b.rxFrame q = .ok received ∧
    Learned b.module.entries received.module.entries a.netIf.ipv4Address a.netIf.macAddress b.now ∧
    received.handed = some answer ∧ received.ret = .success ∧
    ∀ q', Ethernet.Received (Ethernet.transmit b.netIf answer.frame) q' → Concludes a b.netIf q'

/-- A node neither answers nor learns. -/
def Unmoved (third : Receiver c n) (q : Packet) : Prop :=
  ∀ received, third.rxFrame q = .ok received → received.handed = none ∧ received.module =
    third.module

/-- The handler of a response that answers the node's requests. -/
theorem handleResponse_target (hl : Listed m l) {netIf peer : NetIf} {response : Frame}
    (hpeer : response.senderProtoAddress = peer.ipv4Address)
    (hmac : response.senderHwAddress = peer.macAddress)
    (htarget : netIf.ipv4Address = response.targetProtoAddress)
    (hlearn : CanLearn m.entries peer.ipv4Address) (hip : peer.ipv4Address ≠ 0#32) (hr : r ∈ l)
    (hasked : (m.mem r).ipv4Address = peer.ipv4Address) :
    (handleResponse m netIf response now).calls =
        m.pending.filter (fun r => (m.mem r).ipv4Address = peer.ipv4Address) ∧
      (∀ r ∈ (handleResponse m netIf response now).calls,
        ((handleResponse m netIf response now).module.mem r).macAddress = peer.macAddress) ∧
      Learned m.entries (handleResponse m netIf response now).module.entries peer.ipv4Address
        peer.macAddress now := by
  obtain ⟨-, hcalls, hmem⟩ := hl.handleResponse netIf response now htarget
  rw [hpeer] at hcalls
  have hcalled : r ∈ (handleResponse m netIf response now).calls := by
    rw [hcalls]
    exact List.mem_filter.mpr ⟨hr, decide_eq_true hasked⟩
  refine ⟨by rw [hcalls, hl.pending], fun k hk => ?_, ?_⟩
  · have hk' := hmem k
    rw [if_pos hk] at hk'
    exact (congrArg Request.macAddress hk').trans hmac
  · rw [handleResponse_entries, if_pos (List.ne_nil_of_mem hcalled), hpeer, hmac]
    exact learned_addEntry hip hlearn.room hlearn.noStatic _ _

theorem exists_came (sender : NetIf) (header : Ethernet.Header) (frame : Frame) (p : Packet) :
    ∃ q, Came sender header frame p q := by
  obtain ⟨rest, hwire, hlen⟩ := Ethernet.transmit_shape sender header (writeFrame_framed p frame)
  rw [← hwire, frameBytes_length, Ethernet.headerSize, Ethernet.csSize] at hlen
  refine ⟨Ethernet.filled _, Ethernet.filled_received ?_ ?_⟩
  · exact Nat.le_trans (by decide) (Nat.le_of_eq hlen.symm)
  · exact Nat.lt_of_le_of_lt (Nat.le_of_eq hlen) (by decide)

/-- The answer at the node that asked. -/
theorem concludes_iff {a : Receiver c n} {peer : NetIf} {request : Frame} {p q : Packet}
    (hl : Listed a.module l) (hvalid : request.isValid = true)
    (hsender : request.senderProtoAddress = a.netIf.ipv4Address)
    (hhw : request.senderHwAddress = a.netIf.macAddress)
    (hlearn : CanLearn a.module.entries peer.ipv4Address) (hip : peer.ipv4Address ≠ 0#32)
    (hr : r ∈ l) (hasked : (a.module.mem r).ipv4Address = peer.ipv4Address)
    (hq : Came peer (responseHeader peer request) (responseFrame peer request) p q) :
    Concludes a peer q ↔ ¬ Misplaced peer a.netIf := by
  have hours : Ethernet.isForUs a.netIf (responseHeader peer request).destAddress = true := by
    simp [Ethernet.isForUs, responseHeader, hhw]
  have hframe := a.rxFrame_came hq hours rfl
  by_cases hbad : Misplaced peer a.netIf
  · rw [if_pos hbad] at hframe
    refine iff_of_false ?_ (not_not_intro hbad)
    rintro ⟨received, hreceived, -⟩
    rw [hframe] at hreceived
    cases hreceived
  · obtain ⟨hdecode, hcount⟩ := hq.behind
    have hresponse : rxFrame a.module a.netIf (Ethernet.behindHeader q) a.link a.now =
        handleResponse a.module a.netIf (responseFrame peer request) a.now := by
      rw [rxFrame_response hcount (by rw [hdecode]; exact hvalid) (by rw [hdecode]; rfl), hdecode]
    rw [if_neg hbad, hresponse] at hframe
    exact iff_of_true ⟨_, hframe, handleResponse_target hl rfl rfl hsender.symm hlearn hip hr
      hasked⟩ hbad

theorem unmoved_request {sender : NetIf} {p q : Packet} (third : Receiver c n)
    (hip : third.netIf.ipv4Address ≠ ip)
    (hq : Came sender (requestHeader sender) (requestFrame sender ip) p q) : Unmoved third q := by
  have hours : Ethernet.isForUs third.netIf (requestHeader sender).destAddress = true := by
    rw [Ethernet.isForUs, Bool.or_eq_true, decide_eq_true_eq]
    exact .inr rfl
  have hframe := third.rxFrame_came hq hours rfl
  intro received hreceived
  rw [hframe] at hreceived
  split_ifs at hreceived
  obtain ⟨hdecode, hcount⟩ := hq.behind
  have hother : ¬ third.netIf.ipv4Address = (requestFrame sender ip).targetProtoAddress := hip
  rw [rxFrame_request hcount (by rw [hdecode]; rfl) (by rw [hdecode]; rfl), hdecode, handleRequest,
    if_neg hother] at hreceived
  obtain rfl := Except.ok.inj hreceived
  exact ⟨rfl, rfl⟩

/-- The exchange comes to its end in every case but one: one of the two drivers pads the
frames of its code behind their check sequence, and the other one leaves the check to the
code. No third node is moved. -/
theorem exchange_iff {a : Receiver c n} {b : Receiver c' n'}
    (ha : Asks m r l b.netIf.ipv4Address link now)
    (hmodule : a.module = (request m a.netIf r b.netIf.ipv4Address link now).module)
    (hb : CanLearn b.module.entries a.netIf.ipv4Address) (hworks : b.link.Works)
    (hne : a.netIf.ipv4Address ≠ 0#32) (hne' : b.netIf.ipv4Address ≠ 0#32) :
    (request m a.netIf r b.netIf.ipv4Address link now).answer = .pending ∧
      ∃ question, (request m a.netIf r b.netIf.ipv4Address link now).handed = some question ∧
        ∀ q, Ethernet.Received (Ethernet.transmit a.netIf question.frame) q →
          (Exchanges a b q ↔ ¬ Misplaced a.netIf b.netIf ∧ ¬ Misplaced b.netIf a.netIf) ∧
          ∀ {k j : Nat} (third : Receiver k j), third.netIf.ipv4Address ≠ b.netIf.ipv4Address →
            Unmoved third q := by
  obtain ⟨p, hanswer, hhanded, hlisted, hasked, hlearn⟩ := ha.question a.netIf
  refine ⟨hanswer, _, hhanded, fun q hq => ⟨?_, fun third hip => unmoved_request third hip hq⟩⟩
  rw [← hmodule] at hlisted hasked hlearn
  have hours : Ethernet.isForUs b.netIf (requestHeader a.netIf).destAddress = true := by
    rw [Ethernet.isForUs, Bool.or_eq_true, decide_eq_true_eq]
    exact .inr rfl
  have hframe := b.rxFrame_came hq hours rfl
  by_cases hbad : Misplaced a.netIf b.netIf
  · rw [if_pos hbad] at hframe
    refine iff_of_false ?_ fun h => h.1 hbad
    rintro ⟨received, answer, hreceived, -⟩
    rw [hframe] at hreceived
    cases hreceived
  · obtain ⟨hdecode, hcount⟩ := Came.behind hq
    obtain ⟨p', hresponse⟩ := handleRequest_target b.module b.now hworks
      (show b.netIf.ipv4Address =
        (requestFrame a.netIf b.netIf.ipv4Address).targetProtoAddress from rfl)
    rw [if_neg hbad, rxFrame_request hcount (by rw [hdecode]; rfl) (by rw [hdecode]; rfl), hdecode,
      hresponse] at hframe
    have hconcludes : ∀ {q'},
      Came b.netIf (responseHeader b.netIf (requestFrame a.netIf b.netIf.ipv4Address))
        (responseFrame b.netIf (requestFrame a.netIf b.netIf.ipv4Address)) p' q' →
        (Concludes a b.netIf q' ↔ ¬ Misplaced b.netIf a.netIf) := fun hq' =>
      concludes_iff hlisted rfl rfl rfl hlearn hne' List.mem_cons_self hasked hq'
    constructor
    · rintro ⟨received, answer, hreceived, -, hanswered, -, hall⟩
      rw [hframe] at hreceived
      obtain rfl := Except.ok.inj hreceived
      obtain rfl := Option.some.inj hanswered
      obtain ⟨q', hq'⟩ := exists_came b.netIf
        (responseHeader b.netIf (requestFrame a.netIf b.netIf.ipv4Address))
        (responseFrame b.netIf (requestFrame a.netIf b.netIf.ipv4Address)) p'
      exact ⟨hbad, (hconcludes hq').mp (hall q' hq')⟩
    · rintro ⟨-, hgood⟩
      exact ⟨_, _, hframe, learned_addEntry hne hb.room hb.noStatic _ _, rfl, rfl,
        fun q' hq' => (hconcludes hq').mpr hgood⟩

/-- The nodes 192.168.1.1 and 192.168.1.2, with drivers of some capabilities. -/
def firstNetIf (caps : BitVec 32) : NetIf := ⟨sampleMac 1, 0xC0A80101#32, caps⟩
def secondNetIf (caps : BitVec 32) : NetIf := ⟨sampleMac 2, 0xC0A80102#32, caps⟩

/-- A node on which everything works. -/
def station (m : Module 1 1) (netIf : NetIf) : Receiver 1 1 where
  module := m
  netIf := netIf
  link := sampleLink
  now := 0#32
  protocols := [ethernetProtocol m sampleLink 0#32]
  registered := rfl

def asked (caps : BitVec 32) : Requested 1 1 :=
  request (Module.init 1 1) (firstNetIf caps) ⟨0, Nat.one_pos⟩ 0xC0A80102#32 sampleLink 0#32

theorem init_asks : Asks (Module.init 1 1) 0 [] 0xC0A80102#32 sampleLink 0#32 where
  listed := listed_init
  idle := List.not_mem_nil
  unknown := by decide
  room := by decide
  works := ⟨⟨_, rfl⟩, rfl⟩

theorem init_canLearn (ip : Ipv4Address) : CanLearn (Module.init 1 1).entries ip where
  room := by decide
  noStatic _ h := nomatch h.1

theorem exchange_iff_sample : ∃ question, (asked 0#32).handed = some question ∧
    Exchanges (station (asked 0#32).module (firstNetIf 0#32))
      (station (Module.init 1 1) (secondNetIf 0#32))
      (Ethernet.filled (Ethernet.transmit (firstNetIf 0#32) question.frame)) := by
  obtain ⟨-, question, hhanded, hall⟩ :=
    exchange_iff (a := station (asked 0#32).module (firstNetIf 0#32))
    (b := station (Module.init 1 1) (secondNetIf 0#32)) init_asks rfl (init_canLearn _)
      ⟨⟨_, rfl⟩, rfl⟩
    (by decide) (by decide)
  refine ⟨question, hhanded, ?_⟩
  obtain rfl := Option.some.inj hhanded
  exact (hall _ (Ethernet.filled_received (by decide) (by decide))).1.mpr (by decide)

/-- A driver that pads but does not compute check sequences breaks the exchange. -/
theorem padded_question_refused :
    ¬ ∀ (a b : Receiver 1 1) (m : Module 1 1) (r : Fin 1) (l : List (Fin 1))
    (link : Link) (now : BitVec 32) (question q : Packet), a.netIf.macAddress ≠ b.netIf.macAddress →
    a.netIf.ipv4Address ≠ b.netIf.ipv4Address → Asks m r l b.netIf.ipv4Address link now →
    a.module = (request m a.netIf r b.netIf.ipv4Address link now).module →
    CanLearn b.module.entries a.netIf.ipv4Address → b.link.Works → a.netIf.ipv4Address ≠ 0#32 →
    b.netIf.ipv4Address ≠ 0#32 →
    (request m a.netIf r b.netIf.ipv4Address link now).handed = some question →
    Ethernet.Received (Ethernet.transmit a.netIf question.frame) q → Exchanges a b q := by
  intro hall
  obtain ⟨p, -, hhanded, -⟩ := init_asks.question (firstNetIf 16#32)
  obtain ⟨q, hq⟩ := exists_came (firstNetIf 16#32) (requestHeader (firstNetIf 16#32))
    (requestFrame (firstNetIf 16#32) 0xC0A80102#32) p
  obtain ⟨received, -, hreceived, -⟩ := hall (station (asked 16#32).module (firstNetIf 16#32))
    (station (Module.init 1 1) (secondNetIf 0#32)) _ _ _ _ _ _ q (by decide) (by decide)
      init_asks rfl
    (init_canLearn _) ⟨⟨_, rfl⟩, rfl⟩ (by decide) (by decide) hhanded hq
  have hframe := (station (Module.init 1 1) (secondNetIf 0#32)).rxFrame_came hq (by decide) rfl
  rw [if_pos (by decide), hreceived] at hframe
  cases hframe

end Exchange

end NanoIp.Arp
