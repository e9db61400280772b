import ProjectE.Threads.Stream

/-!
# Reassembly

A connection whose peer sends the images of packets, one after the other, and does not close:
however the bytes fall into reads, and however the threads take turns, the packets taken are a
prefix of those sent, all of them once everything was read and handled, and the connection stays
(`reassembles`).

This holds as long as the context thread finds room in the reader. Nothing moves unread bytes to
the front of the array, so a packet that is not complete when the array ends there is never
completed: the next `fill_buf` answers nothing, as at the end of the stream, and the connection is
torn down (`not_reassembles`).
-/

namespace ProjectE.Threads

open Verif Net

namespace View

/-- The peer of `c` sends `wire`, does not close, and its connection is not ended from here: every
read gives the next bytes of `wire`, one at least. -/
def feeds (wire : List UInt8) (c : Uuid) (v : View) : Act → Bool
  | .context read =>
    match v.context, read with
    | .body r, .ok bs => r ≠ .accepted c || (bs ≠ [] && (v.received r ++ bs).isPrefixOf wire)
    | .body r, .error _ => r ≠ .accepted c
    | _, _ => true
  | .teardown id => id ≠ c
  | .handleDisconnection => v.asked.head? ≠ some c
  | _ => true

/-- The context thread finds room in the reader of `c`. -/
def hasRoom (c : Uuid) (v : View) : Act → Bool
  | .context _ =>
    match v.context with
    | .body r => r ≠ .accepted c || (v.reader r).all fun reader => !reader.full
    | _ => true
  | _ => true

end View

/-- The main thread will parse what is unread of connection `c`, all of it. -/
def MainPc.willParse (c : Uuid) (unread : Nat) : MainPc → Bool
  | .tcpRead id | .lockUsing id | .lookup id => id = c
  | .enter r | .lock r _ _ | .body r _ _ | .handle r _ _ | .unlock r _ (.parsed (some _)) =>
    r = .accepted c
  | .unlock r _ (.reparse buffer) | .parse r _ buffer => r = .accepted c && buffer.size = unread
  | _ => false

/-- The connection is announced, before any `TcpRead` of it. -/
def Announced (c : Uuid) (events : List (TCPEvent × Uuid)) : Prop :=
  ∃ pre post, events = pre ++ (.tcpConnection, c) :: post ∧ (.tcpRead, c) ∉ pre

/-- What is unread of connection `c` holds no complete packet, or will be parsed. -/
def Parses (c : Uuid) (v : View) : Prop := ∀ reader, v.reader (.accepted c) = some reader →
  (.tcpRead, c) ∈ v.events ∨ Packet.deserialize reader.unread = none ∨
    v.main.willParse c reader.unread.length = true

/-- A connection in the middle of being read, whose bytes are the first of this wire, and which will
be parsed. -/
structure Follows (wire : List UInt8) (c : Uuid) (v : View) : Prop where
  there : (v.reader (.accepted c)).isSome
  /-- Nobody is about to erase it. -/
  stays : ∀ inside, v.context ≠ .disconnect c inside ∧ v.context ≠ .erase c inside
  received : v.received (.accepted c) <+: wire
  client : v.known c = true ∨ Announced c v.events
  known : v.main.on = some c → v.known c = true
  parses : Parses c v

variable {v w : View} {a : Act} {c : Uuid} {wire : List UInt8}

/-! ## The connection stays -/

/-- A read of the connection gives bytes. -/
theorem read_of_feeds {read : ReadOutcome} (hG : v.feeds wire c (.context read) = true)
    (hpc : v.context = .body (.accepted c)) : ∃ bs, read = .ok bs ∧ bs ≠ [] ∧
      v.received (.accepted c) ++ bs <+: wire := by
  cases read with
  | error e => simp [View.feeds, hpc] at hG
  | ok bs =>
    simp only [View.feeds, hpc, ne_eq, not_true_eq_false, decide_false, Bool.false_or,
      Bool.and_eq_true, decide_eq_true_eq, List.isPrefixOf_iff_prefix] at hG
    exact ⟨bs, rfl, hG.1, hG.2⟩

/-- The answer of `fill_buf` is not empty. -/
theorem not_empty_of_feeds {read : ReadOutcome} {reader : BufReader}
    (hG : v.feeds wire c (.context read) = true) (hroom : v.hasRoom c (.context read) = true)
    (hpc : v.context = .body (.accepted c)) (hreader : v.reader (.accepted c) = some reader) :
    ¬ (reader.full = true ∨ read = .ok []) := by
  obtain ⟨bs, rfl, hbs, _⟩ := read_of_feeds hG hpc
  simp only [View.hasRoom, hpc, hreader, ne_eq, not_true_eq_false, decide_false, Bool.false_or,
    Option.all_some, Bool.not_eq_true'] at hroom
  rintro (hfull | hnil)
  · rw [hroom] at hfull
    cases hfull
  · cases hnil
    exact hbs rfl

theorem stays_move (h : Follows wire c v) (hG : v.feeds wire c a = true)
    (hroom : v.hasRoom c a = true) (hm : Move v a w) (inside : Bool) :
    w.context ≠ .disconnect c inside ∧ w.context ≠ .erase c inside := by
  cases hm with
  | @fillEmpty _ r reader hpc hreader hempty =>
    obtain ⟨kind, id⟩ := r
    cases kind with
    | outgoing => exact ⟨nofun, nofun⟩
    | accepted =>
      refine ⟨?_, nofun⟩
      rintro heq
      cases heq
      exact not_empty_of_feeds hG hroom hpc hreader hempty
  | contextGuard hpc =>
    refine ⟨nofun, ?_⟩
    rintro heq
    cases heq
    exact (h.stays inside).1 hpc
  | teardown =>
    refine ⟨?_, nofun⟩
    rintro heq
    cases heq
    simp [View.feeds] at hG
  | disconnectAsked _ hasked =>
    refine ⟨?_, nofun⟩
    rintro heq
    cases heq
    simp [View.feeds, hasked] at hG
  | @push _ _ inside' =>
    cases inside' with
    | true => exact ⟨nofun, nofun⟩
    | false => exact ⟨nofun, nofun⟩
  | contextLock | contextLockGone | fillError | fillData | fillGone | contextUnlock
  | contextUnlockGone | erase | contextUnguard | reset | readEvent | teardownSingle =>
    exact ⟨nofun, nofun⟩
  | _ => exact h.stays inside

theorem there_move (h : Follows wire c v) (hm : Move v a w) : (w.reader (.accepted c)).isSome := by
  cases readers_of_move hm with
  | keeps hkeeps _ =>
    rw [hkeeps]
    exact h.there
  | @erases id inside hpc hreader _ _ _ _ _ _ _ =>
    have hne : c ≠ id := by
      rintro rfl
      exact (h.stays inside).2 hpc
    rw [hreader, Function.update_of_ne (by simpa using hne)]
    exact h.there
  | resets _ hreader _ _ _ _ _ _ =>
    rw [hreader]
    exact h.there
  | adds _ hreader _ _ _ _ _ _ =>
    rw [hreader]
    exact isSome_update h.there

/-- What a reader received after one `fill_buf`. -/
theorem received_filled {r : ReaderRef} {reader : BufReader} {read : ReadOutcome}
    (h : Follows wire c v) (hG : v.feeds wire c (.context read) = true)
    (hpc : v.context = .body r) :
    (v.filled r reader read).received (.accepted c) <+: wire := by
  by_cases heq : r = .accepted c
  · subst heq
    obtain ⟨bs, rfl, _, hsent⟩ := read_of_feeds hG hpc
    simp only [View.filled, Function.update_self]
    refine List.IsPrefix.trans ?_ hsent
    rw [List.prefix_append_right_inj, BufReader.delivered]
    split
    · exact List.nil_prefix
    · exact List.take_prefix _ _
  · simp only [View.filled, Function.update_of_ne (Ne.symm heq)]
    exact h.received

theorem received_move (h : Follows wire c v) (hG : v.feeds wire c a = true) (hm : Move v a w) :
    w.received (.accepted c) <+: wire := by
  cases hm with
  | fillError hpc => exact received_filled h hG hpc
  | fillData hpc => exact received_filled h hG hpc
  | fillEmpty hpc => exact received_filled h hG hpc
  | _ => exact h.received

/-! ## Its client -/

theorem Announced.append {events : List (TCPEvent × Uuid)} (h : Announced c events)
    (more : List (TCPEvent × Uuid)) : Announced c (events ++ more) := by
  obtain ⟨pre, post, rfl, hpre⟩ := h
  exact ⟨pre, post ++ more, by rw [List.append_assoc, List.cons_append], hpre⟩

/-- The first event announces the connection, or is another one that does not read from it. -/
theorem Announced.tail {e : TCPEvent × Uuid} {rest : List (TCPEvent × Uuid)}
    (h : Announced c (e :: rest)) :
    e = (.tcpConnection, c) ∨ e ≠ (.tcpRead, c) ∧ Announced c rest := by
  obtain ⟨pre, post, heq, hpre⟩ := h
  cases pre with
  | nil =>
    cases heq
    exact .inl rfl
  | cons e' pre =>
    cases heq
    rw [List.mem_cons, not_or] at hpre
    exact .inr ⟨Ne.symm hpre.1, pre, post, rfl, hpre.2⟩

/-- No disconnection of it is queued. -/
theorem not_disconnection (hinv : Inv v) (h : Follows wire c v) :
    (.tcpDisconnection, c) ∉ v.events := by
  intro hmem
  have hthere := h.there
  rw [hinv.announced c hmem] at hthere
  cases hthere

/-- A client once there stays. -/
theorem known_of_move (hinv : Inv v) (h : Follows wire c v) (hm : Move v a w)
    (hknown : v.known c = true) : w.known c = true := by
  cases hm with
  | @connect _ id rest known _ _ hid hother =>
    by_cases heq : c = id
    · rw [heq]
      exact hid
    · exact (hother c heq).trans hknown
  | @disconnect _ id rest known _ hevents hother =>
    refine (hother c ?_).trans hknown
    rintro rfl
    exact not_disconnection hinv h (by rw [hevents]; exact List.mem_cons_self)
  | _ => exact hknown

theorem client_move (hinv : Inv v) (h : Follows wire c v) (hm : Move v a w) :
    w.known c = true ∨ Announced c w.events := by
  rcases h.client with hknown | hannounced
  · exact .inl (known_of_move hinv h hm hknown)
  cases hm with
  | @connect _ id rest known _ hevents hid _ =>
    rw [hevents] at hannounced
    rcases hannounced.tail with heq | ⟨_, hrest⟩
    · cases heq
      exact .inl hid
    · exact .inr hrest
  | disconnect _ hevents =>
    rw [hevents] at hannounced
    rcases hannounced.tail with heq | ⟨_, hrest⟩
    · cases heq
    · exact .inr hrest
  | popRead _ hevents =>
    rw [hevents] at hannounced
    rcases hannounced.tail with heq | ⟨_, hrest⟩
    · cases heq
    · exact .inr hrest
  | fillData => exact .inr (hannounced.append _)
  | push => exact .inr (hannounced.append _)
  | accept => exact .inr (hannounced.append _)
  | teardownSingle => exact .inr (hannounced.append _)
  | _ => exact .inr hannounced

theorem known_move (hinv : Inv v) (h : Follows wire c v) (hm : Move v a w)
    (hon : w.main.on = some c) : w.known c = true := by
  apply known_of_move hinv h hm
  rcases on_of_move hm hon with hold | ⟨rest, _, hevents⟩
  · exact h.known hold
  · rcases h.client with hknown | hannounced
    · exact hknown
    · rw [hevents] at hannounced
      rcases hannounced.tail with heq | ⟨hne, _⟩
      · cases heq
      · exact absurd rfl hne

/-! ## Its bytes are parsed -/

/-- A step that keeps the reader, the events and what the main thread is about to do. -/
theorem Parses.frame (h : Parses c v) (hreader : w.reader (.accepted c) = v.reader (.accepted c))
    (hevents : (.tcpRead, c) ∈ v.events → (.tcpRead, c) ∈ w.events)
    (hmain : ∀ unread, v.main.willParse c unread = true → w.main.willParse c unread = true) :
    Parses c w := by
  intro reader hsome
  rw [hreader] at hsome
  rcases h reader hsome with hmem | hend | hwill
  · exact .inl (hevents hmem)
  · exact .inr (.inl hend)
  · exact .inr (.inr (hmain _ hwill))

theorem willParse_of_uses {pc : MainPc} {r : ReaderRef} {unread : Nat} (huses : pc.uses = some r)
    (h : pc.willParse c unread = true) : r = .accepted c := by
  cases pc with
  | lock | body =>
    cases huses
    exact of_decide_eq_true h
  | unlock r' client after =>
    cases huses
    cases after with
    | parsed packet =>
      cases packet with
      | none => cases h
      | some p => exact of_decide_eq_true h
    | reparse buffer =>
      simp only [MainPc.willParse, Bool.and_eq_true, decide_eq_true_eq] at h
      exact h.1
  | parse r' client buffer =>
    simp only [MainPc.uses, Option.ite_none_left_eq_some, Option.some.injEq] at huses
    simp only [MainPc.willParse, Bool.and_eq_true, decide_eq_true_eq] at h
    exact huses.2 ▸ h.1
  | _ => cases huses

theorem parses_move (hinv : Inv v) (htracked : Tracked v) (h : Follows wire c v)
    (hG : v.feeds wire c a = true) (hroom : v.hasRoom c a = true) (hm : Move v a w) :
    Parses c w := by
  have hthere := h.there
  cases hm with
  | connect hpc hevents =>
    refine h.parses.frame rfl (fun hmem => ?_) fun _ => id
    rw [hevents] at hmem
    simpa using hmem
  | disconnect hpc hevents =>
    refine h.parses.frame rfl (fun hmem => ?_) fun _ => id
    rw [hevents] at hmem
    simpa using hmem
  | @popRead _ id rest hpc hevents =>
    intro reader hreader
    rcases h.parses reader hreader with hmem | hend | hwill
    · rw [hevents, List.mem_cons] at hmem
      rcases hmem with heq | hmem
      · cases heq
        exact .inr (.inr (decide_eq_true rfl))
      · exact .inl hmem
    · exact .inr (.inl hend)
    · rw [hpc] at hwill
      cases hwill
  | toOutgoing hpc hout =>
    refine h.parses.frame rfl id ?_
    intro unread hwill
    rw [hpc] at hwill
    cases of_decide_eq_true hwill
    rw [hinv.disjoint c hthere] at hout
    cases hout
  | toAccepted hpc =>
    exact h.parses.frame rfl id fun unread hwill => by rw [hpc] at hwill; exact hwill
  | notFound hpc _ hnone =>
    refine h.parses.frame rfl id ?_
    intro unread hwill
    rw [hpc] at hwill
    cases of_decide_eq_true hwill
    rw [hnone] at hthere
    cases hthere
  | lockUsing hpc =>
    exact h.parses.frame rfl id fun unread hwill => by rw [hpc] at hwill; exact hwill
  | found hpc =>
    refine h.parses.frame rfl id ?_
    intro unread hwill
    rw [hpc] at hwill
    cases of_decide_eq_true hwill
    exact decide_eq_true rfl
  | missed hpc hnone =>
    refine h.parses.frame rfl id ?_
    intro unread hwill
    rw [hpc] at hwill
    cases of_decide_eq_true hwill
    rw [hnone] at hthere
    cases hthere
  | enterKnown hpc =>
    exact h.parses.frame rfl id fun unread hwill => by rw [hpc] at hwill; exact hwill
  | enterUnknown hpc hunknown =>
    refine h.parses.frame rfl id ?_
    intro unread hwill
    rw [hpc] at hwill
    cases of_decide_eq_true hwill
    rw [h.known (by rw [hpc]; rfl)] at hunknown
    cases hunknown
  | lock hpc =>
    exact h.parses.frame rfl id fun unread hwill => by rw [hpc] at hwill; exact hwill
  | @first _ r client reader' hpc hreader' =>
    by_cases heq : r = .accepted c
    · subst heq
      intro reader hreader
      cases hreader'.symm.trans hreader
      cases hd : Packet.deserialize reader'.unread with
      | none => exact .inr (.inl rfl)
      | some packet =>
        right
        right
        exact decide_eq_true rfl
    · refine h.parses.frame rfl id ?_
      intro unread hwill
      rw [hpc] at hwill
      exact absurd (of_decide_eq_true hwill) heq
  | @consume _ r client packet reader' hpc hreader' =>
    by_cases heq : r = .accepted c
    · subst heq
      intro reader hreader
      simp only [Function.update_self, Option.some.injEq] at hreader
      subst hreader
      right
      right
      simp [MainPc.willParse, BufReader.size_buffer]
    · refine h.parses.frame (Function.update_of_ne (Ne.symm heq) _ _) id ?_
      intro unread hwill
      rw [hpc] at hwill
      exact absurd (of_decide_eq_true hwill) heq
  | @unlock _ r client after hpc =>
    refine h.parses.frame rfl id ?_
    intro unread hwill
    rw [hpc] at hwill
    cases after with
    | reparse buffer => exact hwill
    | parsed packet =>
      cases packet with
      | none => cases hwill
      | some p => exact hwill
  | @parseShort _ r client buffer hpc hsize =>
    intro reader hreader
    rcases h.parses reader hreader with hmem | hend | hwill
    · exact .inl hmem
    · exact .inr (.inl hend)
    · simp only [hpc, MainPc.willParse, Bool.and_eq_true, decide_eq_true_eq] at hwill
      exact .inr (.inl (Packet.deserialize_short (hwill.2 ▸ hsize)))
  | @parse _ r client buffer reader' hpc hsize hreader' =>
    intro reader hreader
    rcases h.parses reader hreader with hmem | hend | hwill
    · exact .inl hmem
    · exact .inr (.inl hend)
    · -- the span shows all that is unread
      simp only [hpc, MainPc.willParse, Bool.and_eq_true, decide_eq_true_eq] at hwill
      obtain ⟨rfl, hall⟩ := hwill
      cases hreader'.symm.trans hreader
      have hsees := (htracked _ _ hreader).sees buffer (by simp [hpc, MainPc.span])
      have hview : reader'.buf.view buffer = reader'.unread := by
        rw [reader'.view_of_sees hsees, hall, List.take_length]
      cases hd : Packet.deserialize reader'.unread with
      | none => exact .inr (.inl rfl)
      | some packet =>
        right
        right
        rw [hview, hd]
        exact decide_eq_true rfl
  | handle hpc =>
    exact h.parses.frame rfl id fun unread hwill => by rw [hpc] at hwill; exact hwill
  | leave hpc =>
    exact h.parses.frame rfl id fun unread hwill => by rw [hpc] at hwill; cases hwill
  | gone huses hnone =>
    refine h.parses.frame rfl id ?_
    intro unread hwill
    rw [willParse_of_uses huses hwill] at hnone
    rw [hnone] at hthere
    cases hthere
  | @fillError r reader' e hpc hreader' =>
    have hne : r ≠ .accepted c := by
      rintro rfl
      obtain ⟨bs, hread, _⟩ := read_of_feeds hG hpc
      cases hread
    exact h.parses.frame (Function.update_of_ne hne.symm _ _) id fun _ => id
  | @fillData r reader' bs hpc hreader' =>
    by_cases heq : r = .accepted c
    · subst heq
      intro reader _
      exact .inl (List.mem_append_right _ List.mem_cons_self)
    · exact h.parses.frame (Function.update_of_ne (Ne.symm heq) _ _) (List.mem_append_left _)
        fun _ => id
  | @fillEmpty read r reader' hpc hreader' hempty =>
    have hne : r ≠ .accepted c := by
      rintro rfl
      exact not_empty_of_feeds hG hroom hpc hreader' hempty
    exact h.parses.frame (Function.update_of_ne hne.symm _ _) id fun _ => id
  | push => exact h.parses.frame rfl (List.mem_append_left _) fun _ => id
  | @erase _ id' inside hpc =>
    have hne : c ≠ id' := by
      rintro rfl
      exact (h.stays inside).2 hpc
    exact h.parses.frame (Function.update_of_ne (by simpa using hne) _ _) id fun _ => id
  | reset => exact h.parses.frame rfl id fun _ => id
  | @accept id' fd hpc hfresh =>
    have hne : c ≠ id' := by
      rintro rfl
      exact hfresh (hinv.ids _ hthere)
    exact h.parses.frame (Function.update_of_ne (by simpa using hne) _ _) (List.mem_append_left _)
      fun _ => id
  | teardownSingle => exact h.parses.frame rfl (List.mem_append_left _) fun _ => id
  | _ => exact h.parses.frame rfl id fun _ => id

/-! ## From the accept on -/

theorem follows_move (hinv : Inv v) (htracked : Tracked v) (h : Follows wire c v)
    (hG : v.feeds wire c a = true) (hroom : v.hasRoom c a = true) (hm : Move v a w) :
    Follows wire c w where
  there := there_move h hm
  stays := stays_move h hG hroom hm
  received := received_move h hG hm
  client := client_move hinv h hm
  known := known_move hinv h hm
  parses := parses_move hinv htracked h hG hroom hm

/-- A connection just accepted. -/
theorem follows_accept (hinv : Inv v) {fd : Fd} (hm : Move v (.accept c fd) w) :
    Follows wire c w := by
  cases hm with
  | accept hpc hfresh =>
  have hnone : v.reader (.accepted c) = none := by
    rw [← Option.not_isSome_iff_eq_none]
    intro hsome
    exact hfresh (hinv.ids _ hsome)
  refine ⟨?_, ?_, ?_, .inr ?_, ?_, ?_⟩
  · simp only [Function.update_self, Option.isSome_some]
  · intro inside
    simp [hpc]
  · simp only [(hinv.fresh (.accepted c) hfresh).1, List.nil_prefix]
  · exact ⟨v.events, [], rfl, fun hmem => hfresh (hinv.queued _ hmem)⟩
  · intro hon
    exact absurd (hinv.onIds c hon) hfresh
  · intro reader hreader
    simp only [hnone, Option.getD_none, Function.update_self, Option.some.injEq] at hreader
    right
    left
    rw [← hreader, BufReader.unread_new]
    exact Packet.deserialize_nil

namespace System

/-- The packets taken from connection `c` are a prefix of `ps`, all of `ps` when their bytes are
read and handled, and the connection is not disconnected. -/
structure Reassembles (s : System) (c : Uuid) (ps : List Packet) : Prop where
  connected : (s.reader (.accepted c)).isSome ∧ (.tcpDisconnection, c) ∉ s.server.tcpEvents
  inOrder : s.taken (.accepted c) <+: ps
  complete : s.received (.accepted c) = ps.flatMap Packet.serialize → s.main = .idle →
    (.tcpRead, c) ∉ s.server.tcpEvents → s.taken (.accepted c) = ps

theorem reassembles_of_follows {s : System} {c : Uuid} {ps : List Packet} (hps : ∀ p ∈ ps, p.WF)
    (hinv : Inv s.view) (htracked : Tracked s.view)
    (h : Follows (ps.flatMap Packet.serialize) c s.view) : s.Reassembles c ps := by
  have hsplits := Packet.splits_serialize hps []
  rw [List.append_nil] at hsplits
  obtain ⟨reader, hreader⟩ := Option.isSome_iff_exists.mp h.there
  have htracks := htracked _ _ hreader
  refine ⟨⟨h.there, not_disconnection hinv h⟩, ?_, ?_⟩
  · obtain ⟨more, hmore⟩ := h.received
    obtain ⟨rest, htaken⟩ := htracks.taken_splits
    rw [← hmore] at hsplits
    exact htaken.prefix_of_append hsplits Packet.deserialize_nil
  · intro hreceived hmain hevents
    have hmain : s.view.main = .idle := hmain
    have hend : Packet.deserialize reader.unread = none := by
      rcases h.parses reader hreader with hmem | hend | hwill
      · exact absurd hmem hevents
      · exact hend
      · rw [hmain] at hwill
        cases hwill
    have hall := htracks.settled (by rw [hmain]; nofun) hend
    rw [show s.view.received (.accepted c) = _ from hreceived,
      hsplits.eq_splitAll Packet.deserialize_nil] at hall
    exact (Prod.mk.inj hall).1.symm

/-- A packet that fits the reader has its length in its header. -/
theorem wf_of_size_le {garbage : Nat → UInt16} {ms : List Message}
    (hsize : ∀ p ∈ packetsOf garbage ms, p.size ≤ DEFAULT_BUF_SIZE) :
    ∀ p ∈ packetsOf garbage ms, p.WF := by
  refine packetsOf_wf (fun m hm => ?_) garbage
  rw [← packetsOf_message garbage ms] at hm
  obtain ⟨p, hp, rfl⟩ := List.mem_map.mp hm
  have hle := hsize p hp
  have hbound : DEFAULT_BUF_SIZE < 2 ^ 16 := by decide
  simp only [Packet.size] at hle
  simp only [Packet.message]
  omega

/-- **Reassembly, where the reader has room**: from its accept on, in every run that feeds a
connection the images of packets no longer than the reader, and finds room in the reader at every
read, the packets taken are a prefix of those sent, all of them once everything is read and handled,
and the connection is never disconnected. -/
theorem reassembles {transformNumber : UInt64 → UInt64} {garbage : Nat → UInt16}
    {ms : List Message} (hsize : ∀ p ∈ packetsOf garbage ms, p.size ≤ DEFAULT_BUF_SIZE)
    {s₀ s₁ s : System} {c : Uuid} {fd : Fd} (h₀ : (machine transformNumber).Reach s₀)
    (haccept : (machine transformNumber).step s₀ (.accept c fd) = some s₁)
    (hrun : (machine transformNumber).RunUnder (fun s a =>
      s.view.feeds (wireOf garbage ms) c a = true ∧ s.view.hasRoom c a = true) s₁ s) :
    s.Reassembles c (packetsOf garbage ms) := by
  have haccepted : (machine transformNumber).Reach s₁ := h₀.run (.step trivial haccept)
  have hfollows : (machine transformNumber).Reach s ∧ Follows (wireOf garbage ms) c s.view := by
    refine hrun.invariant (I := fun s => (machine transformNumber).Reach s ∧
      Follows (wireOf garbage ms) c s.view) ?_ ⟨haccepted, ?_⟩
    · intro s a t hs hG hstep
      refine ⟨hs.1.run (.step trivial hstep), ?_⟩
      exact follows_move (inv_of_reach hs.1) (tracked_of_reach hs.1) hs.2 hG.1 hG.2
        (move_of_step (consistent hs.1) hstep).1
    · have hstep : s₀.step transformNumber (.accept c fd) = some s₁ := haccept
      exact follows_accept (inv_of_reach h₀) (move_of_step (consistent h₀) hstep).1
  exact reassembles_of_follows (wf_of_size_le hsize) (inv_of_reach hfollows.1)
    (tracked_of_reach hfollows.1) hfollows.2

/-! ## A short message and two long ones -/

/-- Connection 1 was accepted on descriptor 5. -/
def acceptedOne : System :=
  started.base fun b => { b with poll := b.poll.add 5 }.addAccepted 1 5

theorem step_started : (machine Server.transformNumberFunction).step started (.accept 1 5) =
    some acceptedOne := rfl

theorem reach_started : (machine Server.transformNumberFunction).Reach started :=
  ⟨started, starts_started, Relation.ReflTransGen.refl⟩

/-- A Read event of connection 1, and one read. -/
def readOnce (bs : List UInt8) : List Act :=
  [.readEvent (.accepted 1), .context (.ok []), .context (.ok bs), .context (.ok [])]

/-- A message of one byte, read and handled. -/
theorem reassembles_one_byte : ∃ s : System,
    s.taken (.accepted 1) = packetsOf (fun _ => 0) [⟨256, [7]⟩] ∧
      s.Reassembles 1 (packetsOf (fun _ => 0) [⟨256, [7]⟩]) := by
  obtain ⟨s, hrun, hs⟩ := Machine.exists_runUnder_of_exec
    (M := machine Server.transformNumberFunction)
    (G := fun s a => s.view.feeds (wireOf (fun _ => 0) [⟨256, [7]⟩]) 1 a = true ∧
      s.view.hasRoom 1 a = true)
    (s := acceptedOne)
    (l := .main draw :: readOnce (wireOf (fun _ => 0) [⟨256, [7]⟩]) ++
      List.replicate 14 (.main draw))
    (p := fun s => s.received (.accepted 1) = wireOf (fun _ => 0) [⟨256, [7]⟩] ∧
      s.main = .idle ∧ s.server.tcpEvents = [])
    (by decide +kernel)
  obtain ⟨hreceived, hmain, hevents⟩ := of_decide_eq_true hs
  have hre : s.Reassembles 1 (packetsOf (fun _ => 0) [⟨256, [7]⟩]) :=
    reassembles (by decide) reach_started step_started hrun
  exact ⟨s, hre.complete hreceived hmain (by rw [hevents]; exact List.not_mem_nil), hre⟩

/-- Two messages, each of which fits the reader; together they do not. -/
def longMessages : List Message :=
  [⟨256, List.replicate 8000 0⟩, ⟨256, List.replicate 8000 0⟩]

theorem longMessages_fit : ∀ p ∈ packetsOf (fun _ => 0) longMessages,
    p.size ≤ DEFAULT_BUF_SIZE := by
  have hsize : Header.sizeof + 8000 ≤ DEFAULT_BUF_SIZE := by decide
  intro p hp
  simp only [longMessages, packetsOf, List.mem_cons, List.not_mem_nil, or_false] at hp
  rcases hp with rfl | rfl
  · rw [Packet.size, Packet.deserializeTyped, List.length_replicate]
    exact hsize
  · rw [Packet.size, Packet.deserializeTyped, List.length_replicate]
    exact hsize

/-- The first read fills the reader up to its end; at the next one the connection is torn down. -/
theorem not_reassembles : ¬ ∀ (garbage : Nat → UInt16) (ms : List Message) (s₀ s₁ s : System)
    (c : Uuid) (fd : Fd), (∀ p ∈ packetsOf garbage ms, p.size ≤ DEFAULT_BUF_SIZE) →
    (machine Server.transformNumberFunction).Reach s₀ →
    (machine Server.transformNumberFunction).step s₀ (.accept c fd) = some s₁ →
    (machine Server.transformNumberFunction).RunUnder
      (fun s a => s.view.feeds (wireOf garbage ms) c a = true) s₁ s →
    s.Reassembles c (packetsOf garbage ms) := by
  intro hall
  let wire := wireOf (fun _ => 0) longMessages
  obtain ⟨s, hrun, hs⟩ := Machine.exists_runUnder_of_exec
    (M := machine Server.transformNumberFunction)
    (G := fun s a => s.view.feeds wire 1 a = true) (s := acceptedOne)
    (l := readOnce wire ++ [.readEvent (.accepted 1), .context (.ok []),
      .context (.ok (wire.drop DEFAULT_BUF_SIZE)), .context (.ok []), .context (.ok [])])
    (p := fun s => (s.reader (.accepted 1)).isNone)
    (by decide +kernel)
  have hre := hall (fun _ => 0) longMessages started acceptedOne s 1 5 longMessages_fit
    reach_started step_started hrun
  have hthere := hre.connected.1
  rw [Option.isNone_iff_eq_none.mp hs] at hthere
  cases hthere

end System

end ProjectE.Threads
