import Mathlib.Data.List.Nodup

/-!
# The poll table

`net::Poll` keeps a vector of descriptors with the events asked for. Streams, sockets and listeners
are added and removed by the same text with the descriptor of the object, so one definition takes
the descriptor. Only `POLLIN` and `POLLOUT` are ever asked for.
-/

namespace ProjectE.Net

/-- A socket's descriptor. -/
abbrev Fd := Int

/-- `PollEvent::Type`: an entry for which the OS reports several of them makes an event of each. -/
inductive PollEvent.Type where
  | read
  | write
  | error
deriving DecidableEq, Repr

/-- `PollEvent`: what is reported of a descriptor. -/
structure PollEvent where
  type : PollEvent.Type
  fd : Fd
deriving DecidableEq, Repr

/-- `Poll::Fd`; the two flags are `POLLIN` and `POLLOUT` of its `events`. They say what the OS is
asked about the descriptor. -/
structure Poll.Entry where
  fd : Fd
  pollin : Bool
  pollout : Bool
deriving DecidableEq, Repr

/-- `Poll`: its vector of `pollfd`. -/
structure Poll where
  fds : List Poll.Entry
deriving DecidableEq, Repr

namespace Poll

/-- The loop of `add` and `add_write`: the first entry of the descriptor gets the flag, or a new
entry goes to the end. -/
def request (flag : Entry → Entry) (fd : Fd) : List Entry → List Entry
  | [] => [flag ⟨fd, false, false⟩]
  | pfd :: fds => if pfd.fd = fd then flag pfd :: fds else pfd :: request flag fd fds

/-- `add`: the descriptor is asked about reading, by its entry if it has one and by a new one at the
end otherwise. -/
def add (poll : Poll) (fd : Fd) : Poll :=
  ⟨request (fun pfd => { pfd with pollin := true }) fd poll.fds⟩

/-- `add_write`: the same for writing. -/
def addWrite (poll : Poll) (fd : Fd) : Poll :=
  ⟨request (fun pfd => { pfd with pollout := true }) fd poll.fds⟩

/-- `remove`: every entry of the descriptor goes. -/
def remove (poll : Poll) (fd : Fd) : Poll := ⟨poll.fds.filter fun pfd => pfd.fd ≠ fd⟩

/-- `std::remove(fds.begin(), fds.end(), pfd)` with `pfd` the first match itself: the value compared
with is a slot of the vector, so it changes once the slot has been written over. -/
def removeSelf (pfd : Entry) (fds : List Entry) : List Entry :=
  match fds.dropWhile fun other => other.fd = pfd.fd with
  | [] => []
  | moved :: rest => moved :: rest.filter fun other => other.fd ≠ moved.fd

/-- The loop of `remove_write`: it ends at the first entry of the descriptor. One that is not asked
about reading goes altogether. -/
def dropWrite (fd : Fd) : List Entry → List Entry
  | [] => []
  | pfd :: fds =>
    if pfd.fd = fd then
      if pfd.pollin then { pfd with pollout := false } :: fds else removeSelf pfd fds
    else pfd :: dropWrite fd fds

/-- `remove_write`: a descriptor that is not in the table is passed over. -/
def removeWrite (poll : Poll) (fd : Fd) : Poll := ⟨dropWrite fd poll.fds⟩

/-- The `revents` of an entry, as far as `wait` looks at them: of all that the OS may report these
three make events. -/
structure Revents where
  pollin : Bool
  pollout : Bool
  pollerr : Bool
deriving DecidableEq, Repr

/-- What the OS reports of an entry was asked for, or is an error. -/
def Revents.answers (revents : Revents) (pfd : Entry) : Bool :=
  (!revents.pollin || pfd.pollin) && (!revents.pollout || pfd.pollout)

/-- Something is reported. -/
def Revents.reports (revents : Revents) : Bool :=
  revents.pollin || revents.pollout || revents.pollerr

/-- One turn of the loop of `wait`. -/
def Entry.events (pfd : Entry) (revents : Revents) : List PollEvent :=
  (if revents.pollin then [⟨.read, pfd.fd⟩] else []) ++
    ((if revents.pollout then [⟨.write, pfd.fd⟩] else []) ++
      if revents.pollerr then [⟨.error, pfd.fd⟩] else [])

/-- The events of `wait`, in the order of the vector the OS has filled in. -/
def events (polled : List (Entry × Revents)) : List PollEvent :=
  polled.flatMap fun pair => pair.1.events pair.2

/-- The descriptors of the entries, in their order. -/
def descriptors (poll : Poll) : List Fd := poll.fds.map (·.fd)

/-! ## What the operations keep -/

/-- An entry without its write interest. -/
def Entry.reads (pfd : Entry) : Fd × Bool := (pfd.fd, pfd.pollin)

/-- Entries that agree but for write interest are of the same descriptors. -/
theorem fds_of_reads {fds fds' : List Entry} (h : fds'.map Entry.reads = fds.map Entry.reads) :
    fds'.map (·.fd) = fds.map (·.fd) := by
  have hfst := congrArg (List.map Prod.fst) h
  rw [List.map_map, List.map_map] at hfst
  exact hfst

/-- And they ask about reading alike. -/
theorem pollin_of_reads {fds fds' : List Entry} (h : fds'.map Entry.reads = fds.map Entry.reads)
    (hfds : ∀ pfd ∈ fds, pfd.pollin = true) : ∀ pfd ∈ fds', pfd.pollin = true := by
  intro pfd hpfd
  have hmem : pfd.reads ∈ fds.map Entry.reads := h ▸ List.mem_map_of_mem hpfd
  obtain ⟨pfd', hpfd', heq⟩ := List.mem_map.mp hmem
  exact (congrArg Prod.snd heq).symm.trans (hfds pfd' hpfd')

variable {fd : Fd} {flag : Entry → Entry}

/-- A descriptor without an entry gets a new one at the end. -/
theorem request_of_not_mem : ∀ {fds : List Entry}, fd ∉ fds.map (·.fd) →
    request flag fd fds = fds ++ [flag ⟨fd, false, false⟩]
  | [], _ => rfl
  | pfd :: fds, h => by
    obtain ⟨hne, hrest⟩ := List.ne_and_not_mem_of_not_mem_cons h
    rw [request, if_neg fun heq => hne heq.symm, request_of_not_mem hrest, List.cons_append]

/-- Where the descriptor has an entry, no other is touched. -/
theorem reads_request_of_mem : ∀ {fds : List Entry},
    (∀ pfd ∈ fds, (flag pfd).reads = pfd.reads) → fd ∈ fds.map (·.fd) →
      (request flag fd fds).map Entry.reads = fds.map Entry.reads
  | pfd :: fds, hflag, h => by
    obtain ⟨hpfd, hflag⟩ := List.forall_mem_cons.mp hflag
    by_cases heq : pfd.fd = fd
    · rw [request, if_pos heq, List.map_cons, List.map_cons, hpfd]
    · have hrest : fd ∈ fds.map (·.fd) := (List.mem_cons.mp h).resolve_left fun h => heq h.symm
      rw [request, if_neg heq, List.map_cons, List.map_cons, reads_request_of_mem hflag hrest]

/-- A request brings no entry but the descriptor's own. -/
theorem mem_request (hflag : ∀ pfd : Entry, (flag pfd).fd = pfd.fd) :
    ∀ {fds : List Entry}, ∀ pfd ∈ request flag fd fds, pfd.fd = fd ∨ pfd.fd ∈ fds.map (·.fd)
  | [], pfd, h => by
    cases List.mem_singleton.mp h
    exact .inl (hflag _)
  | other :: fds, pfd, h => by
    unfold request at h
    split at h
    next heq =>
      rcases List.mem_cons.mp h with rfl | h
      · exact .inl ((hflag other).trans heq)
      · exact .inr (List.mem_cons_of_mem _ (List.mem_map_of_mem h))
    next =>
      rcases List.mem_cons.mp h with rfl | h
      · exact .inr List.mem_cons_self
      · exact (mem_request hflag pfd h).imp_right (List.mem_cons_of_mem _)

/-- The search ends where the descriptor's first entry is; what comes behind stays. -/
theorem request_append_of_mem {post : List Entry} : ∀ {pre : List Entry},
    fd ∈ pre.map (·.fd) → request flag fd (pre ++ post) = request flag fd pre ++ post
  | pfd :: pre, h => by
    by_cases heq : pfd.fd = fd
    · rw [List.cons_append, request, if_pos heq, request, if_pos heq, List.cons_append]
    · have hrest : fd ∈ pre.map (·.fd) := (List.mem_cons.mp h).resolve_left fun h => heq h.symm
      rw [List.cons_append, request, if_neg heq, request, if_neg heq, request_append_of_mem hrest,
        List.cons_append]

/-- It goes past entries of other descriptors. -/
theorem request_append_of_not_mem {post : List Entry} : ∀ {pre : List Entry},
    fd ∉ pre.map (·.fd) → request flag fd (pre ++ post) = pre ++ request flag fd post
  | [], _ => rfl
  | pfd :: pre, h => by
    obtain ⟨hne, hrest⟩ := List.ne_and_not_mem_of_not_mem_cons h
    rw [List.cons_append, request, if_neg fun heq => hne heq.symm, request_append_of_not_mem hrest,
      List.cons_append]

/-- Entries are taken out, and the rest keeps its order. -/
theorem removeSelf_sublist (pfd : Entry) (fds : List Entry) :
    (removeSelf pfd fds).Sublist fds := by
  unfold removeSelf
  have hdrop : (fds.dropWhile fun other => other.fd = pfd.fd).Sublist fds :=
    List.dropWhile_sublist _
  split
  next => exact List.nil_sublist fds
  next moved rest heq =>
    rw [heq] at hdrop
    exact (List.filter_sublist.cons_cons moved).trans hdrop

/-- The descriptors of the table after the write interest of one was dropped. -/
theorem fds_dropWrite_sublist : ∀ fds : List Entry,
    ((dropWrite fd fds).map (·.fd)).Sublist (fds.map (·.fd))
  | [] => List.Sublist.refl _
  | pfd :: fds => by
    unfold dropWrite
    split
    · split
      · exact List.Sublist.refl _
      · exact ((removeSelf_sublist pfd fds).map _).trans (List.sublist_cons_self _ _)
    · exact (fds_dropWrite_sublist fds).cons_cons _

/-- An entry with read interest stays. -/
theorem reads_dropWrite : ∀ {fds : List Entry}, (∀ pfd ∈ fds, pfd.pollin = true) →
    (dropWrite fd fds).map Entry.reads = fds.map Entry.reads
  | [], _ => rfl
  | pfd :: fds, h => by
    obtain ⟨hpfd, hrest⟩ := List.forall_mem_cons.mp h
    by_cases heq : pfd.fd = fd
    · rw [dropWrite, if_pos heq, if_pos hpfd]
      rfl
    · rw [dropWrite, if_neg heq, List.map_cons, List.map_cons, reads_dropWrite hrest]

/-- The loop ends at the first entry of the descriptor; what comes behind stays. -/
theorem dropWrite_append_of_mem {post : List Entry} : ∀ {pre : List Entry},
    (∀ pfd ∈ pre, pfd.pollin = true) → fd ∈ pre.map (·.fd) →
      dropWrite fd (pre ++ post) = dropWrite fd pre ++ post
  | pfd :: pre, hreads, h => by
    obtain ⟨hpfd, hreads⟩ := List.forall_mem_cons.mp hreads
    by_cases heq : pfd.fd = fd
    · rw [List.cons_append, dropWrite, if_pos heq, if_pos hpfd, dropWrite, if_pos heq, if_pos hpfd,
        List.cons_append]
    · have hrest : fd ∈ pre.map (·.fd) := (List.mem_cons.mp h).resolve_left fun h => heq h.symm
      rw [List.cons_append, dropWrite, if_neg heq, dropWrite, if_neg heq,
        dropWrite_append_of_mem hreads hrest, List.cons_append]

/-- It goes past entries of other descriptors. -/
theorem dropWrite_append_of_not_mem {post : List Entry} : ∀ {pre : List Entry},
    fd ∉ pre.map (·.fd) → dropWrite fd (pre ++ post) = pre ++ dropWrite fd post
  | [], _ => rfl
  | pfd :: pre, h => by
    obtain ⟨hne, hrest⟩ := List.ne_and_not_mem_of_not_mem_cons h
    rw [List.cons_append, dropWrite, if_neg fun heq => hne heq.symm,
      dropWrite_append_of_not_mem hrest, List.cons_append]

/-- Where the descriptor has an entry already, asking for its write events keeps the rest. -/
theorem reads_addWrite {poll : Poll} (h : fd ∈ poll.descriptors) :
    (poll.addWrite fd).fds.map Entry.reads = poll.fds.map Entry.reads :=
  reads_request_of_mem (fun _ _ => rfl) h

/-- A descriptor that is not in the table goes to its end. -/
theorem fds_add_of_not_mem {poll : Poll} (h : fd ∉ poll.descriptors) :
    (poll.add fd).fds = poll.fds ++ [⟨fd, true, false⟩] :=
  request_of_not_mem h

/-- A descriptor without an entry gets one at the end. -/
theorem descriptors_add_of_not_mem {poll : Poll} (h : fd ∉ poll.descriptors) :
    (poll.add fd).descriptors = poll.descriptors ++ [fd] := by
  rw [descriptors, fds_add_of_not_mem h, List.map_append, List.map_singleton, ← descriptors]

/-- The table that polls these descriptors for reading. -/
def polling (l : List Fd) : Poll := ⟨l.map fun fd => ⟨fd, true, false⟩⟩

/-- The table made for a list of descriptors. -/
theorem descriptors_polling (l : List Fd) : (polling l).descriptors = l := by
  rw [descriptors, polling, List.map_map]
  exact List.map_id l

/-- A descriptor that may be there is registered behind the others. -/
theorem elim_add {l : List Fd} (o : Option Fd) (h : ∀ fd ∈ o, fd ∉ l) :
    o.elim (polling l) (polling l).add = polling (l ++ o.toList) := by
  cases o with
  | none => rw [Option.elim_none, Option.toList_none, List.append_nil]
  | some fd =>
    have hfd : fd ∉ (polling l).descriptors := by
      rw [descriptors_polling]
      exact h fd rfl
    rw [Option.elim_some, add, request_of_not_mem hfd]
    simp only [polling, Option.toList_some, List.map_append, List.map_singleton]

/-- One more descriptor, if it is not there yet. -/
theorem nodup_append_toList {l : List Fd} (hl : l.Nodup) (o : Option Fd) (h : ∀ fd ∈ o, fd ∉ l) :
    (l ++ o.toList).Nodup := by
  cases o with
  | none => rwa [Option.toList_none, List.append_nil]
  | some fd =>
    rw [Option.toList_some, ← List.concat_eq_append]
    exact List.Nodup.concat (h fd rfl) hl

/-! ## The entries at the front -/

/-- The table begins with an entry for each of these descriptors, polled for reading, and has no
other entry of them. -/
def Headed (front : List Fd) (poll : Poll) : Prop :=
  ∃ pre post, poll.fds = pre ++ post ∧
    pre.map Entry.reads = (polling front).fds.map Entry.reads ∧ ∀ pfd ∈ post, pfd.fd ∉ front

variable {front : List Fd} {poll : Poll} {pre : List Entry}

/-- The front of the vector has the descriptors it was made with. -/
theorem fds_of_front (h : pre.map Entry.reads = (polling front).fds.map Entry.reads) :
    pre.map (·.fd) = front :=
  (fds_of_reads h).trans (descriptors_polling front)

/-- And all of them are asked about reading. -/
theorem pollin_of_front (h : pre.map Entry.reads = (polling front).fds.map Entry.reads) :
    ∀ pfd ∈ pre, pfd.pollin = true := by
  refine pollin_of_reads h ?_
  intro pfd hpfd
  obtain ⟨fd, -, rfl⟩ := List.mem_map.mp hpfd
  rfl

/-- Asking for events of a descriptor leaves the front where it is. -/
theorem Headed.request (h : Headed front poll)
    (hflag : ∀ pfd : Entry, (flag pfd).fd = pfd.fd ∧
      (pfd.pollin = true → (flag pfd).pollin = true)) :
    Headed front ⟨Poll.request flag fd poll.fds⟩ := by
  obtain ⟨pre, post, hfds, hpre, hpost⟩ := h
  have hkept : ∀ pfd ∈ pre, (flag pfd).reads = pfd.reads := by
    intro pfd hpfd
    have hpollin := pollin_of_front hpre pfd hpfd
    obtain ⟨hfd, hreads⟩ := hflag pfd
    rw [Entry.reads, Entry.reads, hfd, hreads hpollin, hpollin]
  simp only [hfds]
  by_cases hmem : fd ∈ pre.map (·.fd)
  · refine ⟨_, post, request_append_of_mem hmem, ?_, hpost⟩
    rw [reads_request_of_mem hkept hmem, hpre]
  · refine ⟨pre, _, request_append_of_not_mem hmem, hpre, ?_⟩
    intro pfd hpfd
    rcases mem_request (fun pfd => (hflag pfd).1) pfd hpfd with heq | hold
    · rw [heq, ← fds_of_front hpre]
      exact hmem
    · obtain ⟨other, hother, heq⟩ := List.mem_map.mp hold
      exact heq ▸ hpost other hother

/-- `add` leaves the front as it is: it sets a flag that is set there, or works behind it. -/
theorem Headed.add (h : Headed front poll) (fd : Fd) : Headed front (poll.add fd) :=
  h.request fun _ => ⟨rfl, fun _ => rfl⟩

/-- `add_write` may set a flag in the front, but moves nothing. -/
theorem Headed.addWrite (h : Headed front poll) (fd : Fd) : Headed front (poll.addWrite fd) :=
  h.request fun _ => ⟨rfl, id⟩

/-- `remove_write` may clear a flag in the front, but an entry asked about reading stays. -/
theorem Headed.removeWrite (h : Headed front poll) (fd : Fd) :
    Headed front (poll.removeWrite fd) := by
  obtain ⟨pre, post, hfds, hpre, hpost⟩ := h
  have hpollin := pollin_of_front hpre
  unfold Poll.removeWrite
  rw [hfds]
  by_cases hmem : fd ∈ pre.map (·.fd)
  · exact ⟨_, post, dropWrite_append_of_mem hpollin hmem, (reads_dropWrite hpollin).trans hpre,
      hpost⟩
  · refine ⟨pre, _, dropWrite_append_of_not_mem hmem, hpre, ?_⟩
    intro pfd hpfd
    have hold : pfd.fd ∈ post.map (·.fd) :=
      (fds_dropWrite_sublist post).subset (List.mem_map_of_mem hpfd)
    obtain ⟨other, hother, heq⟩ := List.mem_map.mp hold
    exact heq ▸ hpost other hother

/-- A descriptor that is not at the front can go. -/
theorem Headed.remove (h : Headed front poll) (hfd : fd ∉ front) :
    Headed front (poll.remove fd) := by
  obtain ⟨pre, post, hfds, hpre, hpost⟩ := h
  have hkept : pre.filter (fun pfd => pfd.fd ≠ fd) = pre := by
    apply List.filter_eq_self.mpr
    intro pfd hpfd
    have hmem : pfd.fd ∈ front := fds_of_front hpre ▸ List.mem_map_of_mem hpfd
    apply decide_eq_true
    rintro rfl
    exact hfd hmem
  unfold Poll.remove
  refine ⟨pre, post.filter fun pfd => pfd.fd ≠ fd, ?_, hpre, ?_⟩
  · rw [hfds, List.filter_append, hkept]
  · intro pfd hpfd
    exact hpost pfd (List.mem_of_mem_filter hpfd)

/-! ## The events of a poll -/

variable {pfd : Entry} {revents : Revents} {event : PollEvent}

/-- What an entry reports are events of its descriptor. -/
theorem mem_entry_events (h : event ∈ pfd.events revents) :
    event.fd = pfd.fd ∧ revents.reports = true := by
  simp only [Entry.events, List.mem_append] at h
  rcases h with h | h | h
  all_goals
    split at h
    next hflag =>
      cases List.mem_singleton.mp h
      exact ⟨rfl, by simp [Revents.reports, hflag]⟩
    next => cases h

/-- A Read event comes first, or not at all. -/
theorem mem_tail_entry_events {rest : List PollEvent}
    (h : event ∈ (pfd.events revents ++ rest).tail) : event.type ≠ .read ∨ event ∈ rest := by
  have hothers : ∀ event ∈ (if revents.pollout then [⟨.write, pfd.fd⟩] else []) ++
      (if revents.pollerr then [⟨.error, pfd.fd⟩] else [] : List PollEvent),
      event.type ≠ .read := by
    intro event hevent
    rcases List.mem_append.mp hevent with hevent | hevent
    all_goals
      split at hevent
      next =>
        cases List.mem_singleton.mp hevent
        simp
      next => cases hevent
  unfold Entry.events at h
  by_cases hpollin : revents.pollin = true
  · rw [if_pos hpollin] at h
    exact (List.mem_append.mp h).imp_left (hothers event)
  · rw [if_neg hpollin, List.nil_append] at h
    exact (List.mem_append.mp (List.mem_of_mem_tail h)).imp_left (hothers event)

/-- What is reported comes from an entry that the OS has filled in. -/
theorem mem_events {polled : List (Entry × Revents)} (h : event ∈ events polled) :
    ∃ pair ∈ polled, event.fd = pair.1.fd ∧ pair.2.reports = true := by
  obtain ⟨pair, hpair, hevent⟩ := List.mem_flatMap.mp h
  exact ⟨pair, hpair, mem_entry_events hevent⟩

end Poll

end ProjectE.Net
