import ProjectE.Threads.Locks

/-!
# What is taken from a reader

However the reads of the context thread fall between the steps of `on_tcp_data`, the packets taken
from a reader are those the bytes it received begin with: the packets taken and consumed, and then
the unread bytes, make up what was received (`Tracks.splits`). Two things the loop relies on are
part of the invariant. The packet in hand is still at the front of the unread bytes when it is
consumed (`Tracks.front`), because filling only appends; and the span parsed with the mutex released
still shows the front of them (`Tracks.sees`), because filling starts over only under an empty span.
-/

namespace ProjectE.Threads

open Verif Net

/-- The packet the loop has taken from `r` and not yet consumed. -/
def MainPc.pending (r : ReaderRef) : MainPc → Option Packet
  | .lock r' _ (.consume packet) | .body r' _ (.consume packet) =>
    if r' = r then some packet else none
  | _ => none

/-- The packet the loop has in hand, taken or about to be. -/
def MainPc.inHand (r : ReaderRef) : MainPc → Option Packet
  | .lock r' _ (.consume packet) | .body r' _ (.consume packet) | .handle r' _ packet
  | .unlock r' _ (.parsed (some packet)) => if r' = r then some packet else none
  | _ => none

/-- The span the loop is about to parse. -/
def MainPc.span (r : ReaderRef) : MainPc → Option Span
  | .unlock r' _ (.reparse buffer) | .parse r' _ buffer => if r' = r then some buffer else none
  | _ => none

/-- What a reader holds, and what was taken from it: the packets taken and the bytes left are what
it has received, the packet in the thread's hand is the first of what is unread, and the span that
is parsed shows it. -/
structure Tracks (v : View) (r : ReaderRef) (reader : BufReader) : Prop where
  splits : ∃ ps, Packet.framing.Splits (v.received r) ps reader.unread ∧
    v.taken r = ps ++ (v.main.pending r).toList
  front : ∀ packet, v.main.inHand r = some packet → Packet.deserialize reader.unread = some packet
  sees : ∀ buffer, v.main.span r = some buffer → reader.Sees buffer

/-- Every reader that is there is tracked. -/
def Tracked (v : View) : Prop := ∀ r reader, v.reader r = some reader → Tracks v r reader

variable {v w : View} {a : Act} {r : ReaderRef} {reader : BufReader}

/-- Nothing of a reader is in hand where `on_tcp_data` does not run on it. -/
theorem MainPc.nothing_of_not_inside {pc : MainPc} (h : pc.inside ≠ some r) :
    pc.pending r = none ∧ pc.inHand r = none ∧ pc.span r = none := by
  have hne {r' : ReaderRef} (hinside : pc.inside = some r') : ¬ r' = r := by
    intro heq
    exact h (heq ▸ hinside)
  cases pc with
  | lock r' client body =>
    cases body <;> simp [pending, inHand, span, hne rfl]
  | body r' client body =>
    cases body <;> simp [pending, inHand, span, hne rfl]
  | unlock r' client after =>
    cases after with
    | parsed packet => cases packet <;> simp [pending, inHand, span, hne rfl]
    | reparse buffer => simp [pending, inHand, span, hne rfl]
  | parse r' client buffer => simp [pending, inHand, span, hne rfl]
  | handle r' client packet => simp [pending, inHand, span, hne rfl]
  | _ => exact ⟨rfl, rfl, rfl⟩

/-- A step that neither reads into the reader nor works on it. -/
theorem Tracks.congr (h : Tracks v r reader) (hreceived : w.received r = v.received r)
    (htaken : w.taken r = v.taken r) (hpending : w.main.pending r = v.main.pending r)
    (hinHand : ∀ packet, w.main.inHand r = some packet → v.main.inHand r = some packet)
    (hspan : ∀ buffer, w.main.span r = some buffer → v.main.span r = some buffer) :
    Tracks w r reader where
  splits := by
    rw [hreceived, htaken, hpending]
    exact h.splits
  front packet hp := h.front packet (hinHand packet hp)
  sees buffer hb := h.sees buffer (hspan buffer hb)

theorem Tracks.same (h : Tracks v r reader) (hreceived : w.received r = v.received r)
    (htaken : w.taken r = v.taken r) (hmain : w.main = v.main) : Tracks w r reader :=
  h.congr hreceived htaken (by rw [hmain]) (fun _ hp => hmain ▸ hp) fun _ hb => hmain ▸ hb

/-- Nor does one of the main thread elsewhere. -/
theorem Tracks.elsewhere (h : Tracks v r reader) (hreceived : w.received r = v.received r)
    (htaken : w.taken r = v.taken r) (hv : v.main.inside ≠ some r) (hw : w.main.inside ≠ some r) :
    Tracks w r reader := by
  obtain ⟨hpending, hinHand, hspan⟩ := MainPc.nothing_of_not_inside hv
  obtain ⟨hpending', hinHand', hspan'⟩ := MainPc.nothing_of_not_inside hw
  refine h.congr hreceived htaken (hpending'.trans hpending.symm) ?_ ?_
  · intro packet hp
    rw [hinHand'] at hp
    cases hp
  · intro buffer hb
    rw [hspan'] at hb
    cases hb

/-- A reader just made has nothing to track. -/
theorem tracks_new (hreceived : v.received r = []) (htaken : v.taken r = [])
    (hinside : v.main.inside ≠ some r) : Tracks v r BufReader.new := by
  obtain ⟨hpending, hinHand, hspan⟩ := MainPc.nothing_of_not_inside hinside
  refine ⟨⟨[], ?_, ?_⟩, ?_, ?_⟩
  · rw [hreceived, BufReader.unread_new]
    exact .nil _
  · rw [htaken, hpending]
    rfl
  · intro packet hp
    rw [hinHand] at hp
    cases hp
  · intro buffer hb
    rw [hspan] at hb
    cases hb

/-! ## The steps of the loop -/

/-- The context thread reads: what was in hand stays at the front, what is seen stays in place. -/
theorem Tracks.fill (h : Tracks v r reader) (read : ReadOutcome)
    (hreceived : w.received r = v.received r ++ reader.delivered read)
    (htaken : w.taken r = v.taken r) (hmain : w.main = v.main) :
    Tracks w r (reader.fillBuf read).1 where
  splits := by
    obtain ⟨ps, hsplits, hps⟩ := h.splits
    refine ⟨ps, ?_, ?_⟩
    · rw [hreceived, reader.unread_fillBuf]
      exact hsplits.more _
    · rw [htaken, hmain, hps]
  front packet hp := by
    rw [hmain] at hp
    rw [reader.unread_fillBuf]
    exact Packet.deserialize_append (h.front packet hp) _
  sees buffer hb := by
    rw [hmain] at hb
    exact (h.sees buffer hb).fillBuf reader read

/-- The loop parses, and has in hand what the unread bytes begin with. -/
theorem Tracks.parsed (h : Tracks v r reader) (hreceived : w.received r = v.received r)
    (htaken : w.taken r = v.taken r) (hv : v.main.pending r = none) (hw : w.main.pending r = none)
    (hinHand : ∀ packet, w.main.inHand r = some packet →
      Packet.deserialize reader.unread = some packet)
    (hspan : w.main.span r = none) : Tracks w r reader where
  splits := by
    rw [hreceived, htaken, hw, ← hv]
    exact h.splits
  front := hinHand
  sees buffer hb := by
    rw [hspan] at hb
    cases hb

theorem inHand_loopHead {client : Uuid} {packet : Option Packet} {p : Packet}
    (h : (System.loopHead r client packet).inHand r = some p) : packet = some p := by
  cases packet with
  | none => cases h
  | some p' =>
    simp only [System.loopHead, MainPc.inHand, if_true] at h
    exact h

@[simp] theorem pending_loopHead (client : Uuid) (packet : Option Packet) :
    (System.loopHead r client packet).pending r = none := by
  cases packet <;> rfl

@[simp] theorem span_loopHead (client : Uuid) (packet : Option Packet) :
    (System.loopHead r client packet).span r = none := by
  cases packet <;> rfl

/-- What a seen span parses to, the unread bytes begin with. -/
theorem Tracks.deserialize_view (h : Tracks v r reader) {buffer : Span} {packet : Packet}
    (hspan : v.main.span r = some buffer)
    (hp : Packet.deserialize (reader.buf.view buffer) = some packet) :
    Packet.deserialize reader.unread = some packet := by
  rw [reader.view_of_sees (h.sees buffer hspan)] at hp
  have hmore := Packet.deserialize_append hp (reader.unread.drop buffer.size)
  rwa [List.take_append_drop] at hmore

/-- The packet is consumed. -/
theorem Tracks.consume (h : Tracks v r reader) {client : Uuid} {packet : Packet}
    (hreceived : w.received r = v.received r) (htaken : w.taken r = v.taken r)
    (hv : v.main = .body r client (.consume packet))
    (hw : w.main = .unlock r client (.reparse (reader.consume packet.size).buf.buffer)) :
    Tracks w r (reader.consume packet.size) := by
  have hfront : Packet.deserialize reader.unread = some packet :=
    h.front packet (by simp [hv, MainPc.inHand])
  have hle : packet.size ≤ reader.unread.length := (Packet.deserialize_some hfront).2.1
  obtain ⟨ps, hsplits, hps⟩ := h.splits
  refine ⟨⟨ps ++ [packet], ?_, ?_⟩, ?_, ?_⟩
  · rw [hreceived, reader.unread_consume hle]
    exact hsplits.snoc hfront
  · rw [htaken, hps, hv, hw]
    simp [MainPc.pending]
  · intro p hp
    rw [hw] at hp
    cases hp
  · intro buffer hb
    simp only [hw, MainPc.span, if_true, Option.some.injEq] at hb
    rw [← hb]
    exact (reader.consume packet.size).sees_buffer

/-- The packet in hand is handled. -/
theorem Tracks.handle (h : Tracks v r reader) {client : Uuid} {packet : Packet}
    (hreceived : w.received r = v.received r) (htaken : w.taken r = v.taken r ++ [packet])
    (hv : v.main = .handle r client packet) (hw : w.main = .lock r client (.consume packet)) :
    Tracks w r reader := by
  have hfront : Packet.deserialize reader.unread = some packet :=
    h.front packet (by simp [hv, MainPc.inHand])
  obtain ⟨ps, hsplits, hps⟩ := h.splits
  refine ⟨⟨ps, ?_, ?_⟩, ?_, ?_⟩
  · rw [hreceived]
    exact hsplits
  · rw [htaken, hps, hv, hw]
    simp [MainPc.pending]
  · intro p hp
    simp only [hw, MainPc.inHand, if_true, Option.some.injEq] at hp
    rw [← hp]
    exact hfront
  · intro buffer hb
    rw [hw] at hb
    cases hb

/-! ## Every step -/

theorem tracked_filled (h : Tracked v) {r' : ReaderRef} {filled : BufReader} (read : ReadOutcome)
    (hfilled : v.reader r' = some filled)
    (hreader : (v.filled r' filled read).reader r = some reader)
    (hw : w.received = (v.filled r' filled read).received) (htaken : w.taken = v.taken)
    (hmain : w.main = v.main) : Tracks w r reader := by
  by_cases heq : r = r'
  · subst heq
    simp only [View.filled, Function.update_self, Option.some.injEq] at hreader
    subst hreader
    refine (h r filled hfilled).fill read ?_ (congrFun htaken r) hmain
    rw [hw]
    exact Function.update_self _ _ _
  · simp only [View.filled, Function.update_of_ne heq] at hreader
    refine (h r reader hreader).same ?_ (congrFun htaken r) hmain
    rw [hw]
    exact Function.update_of_ne heq _ _

theorem inside_of_uses {pc : MainPc} (h : pc.uses = some r) : pc.inside = some r := by
  cases pc with
  | lock | body | unlock => exact h
  | parse r' client buffer =>
    simp only [MainPc.uses, Option.ite_none_left_eq_some] at h
    exact h.2
  | _ => cases h

theorem tracked_move (hinv : Inv v) (h : Tracked v) (hm : Move v a w) : Tracked w := by
  intro r reader hreader
  cases hm with
  | connect hpc => exact (h r reader hreader).same rfl rfl rfl
  | disconnect hpc => exact (h r reader hreader).same rfl rfl rfl
  | popRead hpc =>
    exact (h r reader hreader).elsewhere rfl rfl (by simp [hpc, MainPc.inside])
      (by simp [MainPc.inside])
  | toOutgoing hpc =>
    exact (h r reader hreader).congr rfl rfl (by rw [hpc]; rfl) nofun nofun
  | toAccepted hpc =>
    exact (h r reader hreader).congr rfl rfl (by rw [hpc]; rfl) nofun nofun
  | notFound hpc =>
    exact (h r reader hreader).congr rfl rfl (by rw [hpc]; rfl) nofun nofun
  | lockUsing hpc =>
    exact (h r reader hreader).congr rfl rfl (by rw [hpc]; rfl) nofun nofun
  | found hpc =>
    exact (h r reader hreader).congr rfl rfl (by rw [hpc]; rfl) nofun nofun
  | missed hpc =>
    exact (h r reader hreader).congr rfl rfl (by rw [hpc]; rfl) nofun nofun
  | enterKnown hpc =>
    exact (h r reader hreader).congr rfl rfl (by rw [hpc]; rfl) nofun nofun
  | enterUnknown hpc =>
    exact (h r reader hreader).congr rfl rfl (by rw [hpc]; rfl) nofun nofun
  | @lock _ r' client body hpc =>
    have hsame := h r reader hreader
    cases body with
    | first => exact hsame.congr rfl rfl (by rw [hpc]; rfl) nofun nofun
    | consume packet =>
      exact hsame.congr rfl rfl (by rw [hpc]; rfl) (by rw [hpc]; exact fun _ => id) nofun
  | @first _ r' client reader' hpc hreader' =>
    by_cases heq : r' = r
    · subst heq
      cases hreader'.symm.trans hreader
      refine (h r' reader hreader).parsed rfl rfl (by rw [hpc]; rfl) rfl (fun p hp => ?_) rfl
      cases hd : Packet.deserialize reader.unread with
      | none =>
        simp only [hd] at hp
        cases hp
      | some p' =>
        simp only [hd, MainPc.inHand, if_true] at hp
        exact hp
    · exact (h r reader hreader).elsewhere rfl rfl (by simp [hpc, MainPc.inside, heq])
        (by simp [MainPc.inside, heq])
  | @consume _ r' client packet reader' hpc hreader' =>
    by_cases heq : r = r'
    · subst heq
      simp only [Function.update_self, Option.some.injEq] at hreader
      subst hreader
      exact (h r reader' hreader').consume rfl rfl hpc rfl
    · simp only [Function.update_of_ne heq] at hreader
      exact (h r reader hreader).elsewhere rfl rfl (by simp [hpc, MainPc.inside, Ne.symm heq])
        (by simp [MainPc.inside, Ne.symm heq])
  | @unlock _ r' client after hpc =>
    have hsame := h r reader hreader
    cases after with
    | reparse buffer =>
      exact hsame.congr rfl rfl (by rw [hpc]; rfl) nofun (by rw [hpc]; exact fun _ => id)
    | parsed packet =>
      cases packet with
      | none => exact hsame.congr rfl rfl (by rw [hpc]; rfl) nofun nofun
      | some p =>
        exact hsame.congr rfl rfl (by rw [hpc]; rfl) (by rw [hpc]; exact fun _ => id) nofun
  | @parseShort _ r' client buffer hpc =>
    exact (h r reader hreader).congr rfl rfl (by rw [hpc]; rfl) nofun nofun
  | @parse _ r' client buffer reader' hpc hsize hreader' =>
    by_cases heq : r' = r
    · subst heq
      cases hreader'.symm.trans hreader
      have hsame := h r' reader hreader
      refine hsame.parsed rfl rfl (by rw [hpc]; rfl) (pending_loopHead _ _) (fun p hp => ?_)
        (span_loopHead _ _)
      exact hsame.deserialize_view (by simp [hpc, MainPc.span]) (inHand_loopHead hp)
    · exact (h r reader hreader).elsewhere rfl rfl (by simp [hpc, MainPc.inside, heq])
        (by simp [heq])
  | @handle _ r' client packet hpc =>
    by_cases heq : r = r'
    · subst heq
      exact (h r reader hreader).handle rfl (Function.update_self _ _ _) hpc rfl
    · exact (h r reader hreader).elsewhere rfl (Function.update_of_ne heq _ _)
        (by simp [hpc, MainPc.inside, Ne.symm heq]) (by simp [MainPc.inside, Ne.symm heq])
  | leave hpc =>
    exact (h r reader hreader).congr rfl rfl (by rw [hpc]; rfl) nofun nofun
  | @gone _ r' huses hnone =>
    have hne : v.main.inside ≠ some r := by
      rw [inside_of_uses huses]
      rintro heq
      cases heq
      cases hnone.symm.trans hreader
    exact (h r reader hreader).elsewhere rfl rfl hne nofun
  | fillError _ hreader' => exact tracked_filled h _ hreader' hreader rfl rfl rfl
  | fillData _ hreader' => exact tracked_filled h _ hreader' hreader rfl rfl rfl
  | fillEmpty _ hreader' => exact tracked_filled h _ hreader' hreader rfl rfl rfl
  | @erase _ id inside hpc =>
    have hne : r ≠ .accepted id := by
      rintro rfl
      simp only [Function.update_self] at hreader
      cases hreader
    simp only [Function.update_of_ne hne] at hreader
    exact (h r reader hreader).same rfl rfl rfl
  | reset hpc =>
    obtain ⟨kind, id⟩ := r
    cases kind with
    | accepted => exact (h _ reader hreader).same rfl rfl rfl
    | outgoing => cases hreader
  | @accept id fd hpc hfresh =>
    by_cases heq : r = .accepted id
    · subst heq
      have hnone : v.reader (.accepted id) = none := by
        rw [← Option.not_isSome_iff_eq_none]
        intro hsome
        exact hfresh (hinv.ids _ hsome)
      simp only [Function.update_self, hnone, Option.getD_none, Option.some.injEq] at hreader
      subst hreader
      obtain ⟨hreceived, htaken⟩ := hinv.fresh (.accepted id) hfresh
      refine tracks_new hreceived htaken fun hinside => hfresh ?_
      exact hinv.onIds _ (MainPc.on_of_inside hinside)
    · simp only [Function.update_of_ne heq] at hreader
      exact (h r reader hreader).same rfl rfl rfl
  | _ => exact (h r reader hreader).same rfl rfl rfl

/-- The readers of a server that has just started are new. -/
theorem reader_of_starts {s : System} (h : System.Starts s) (hreader : s.reader r = some reader) :
    reader = BufReader.new := by
  obtain ⟨kind, id⟩ := r
  cases kind with
  | accepted =>
    have hnone : s.reader (.accepted id) = none :=
      System.reader_accepted_none (by rw [h.connections]; exact AList.notMem_empty id)
    cases hnone.symm.trans hreader
  | outgoing =>
    rcases h.outgoing with ⟨hnone, _⟩ | ⟨id', fd, hconnection, _, _⟩
    · simp [System.reader, BaseServer.connection, hnone] at hreader
    · simp only [System.reader, BaseServer.connection, hconnection,
        Option.map_eq_some_iff] at hreader
      obtain ⟨connection, ⟨pair, hpair, rfl⟩, rfl⟩ := hreader
      cases (Option.filter_eq_some_iff.mp hpair).1
      rfl

/-- **Every reader of a reachable state is tracked.** -/
theorem tracked_of_reach {transformNumber : UInt64 → UInt64} {s : System}
    (h : (System.machine transformNumber).Reach s) : Tracked s.view := by
  refine System.view_invariant ?_ ?_ h
  · intro s hs r reader hreader
    rw [reader_of_starts hs hreader]
    apply tracks_new (congrFun hs.received r) (congrFun hs.taken r)
    rw [show s.view.main = .idle from hs.main]
    nofun
  · intro _ _ _ hs hI _ hmove
    exact tracked_move (inv_of_reach hs) hI hmove

/-! ## What the invariant says of the packets taken -/

theorem inHand_of_pending {pc : MainPc} {packet : Packet} (h : pc.pending r = some packet) :
    pc.inHand r = some packet := by
  cases pc with
  | lock r' client body =>
    cases body with
    | first => cases h
    | consume p => exact h
  | body r' client body =>
    cases body with
    | first => cases h
    | consume p => exact h
  | _ => cases h

/-- What was taken are packets the received bytes begin with. -/
theorem Tracks.taken_splits (h : Tracks v r reader) :
    ∃ rest, Packet.framing.Splits (v.received r) (v.taken r) rest := by
  obtain ⟨ps, hsplits, hps⟩ := h.splits
  cases hpending : v.main.pending r with
  | none =>
    rw [hpending, Option.toList_none, List.append_nil] at hps
    exact ⟨_, hps ▸ hsplits⟩
  | some packet =>
    rw [hpending, Option.toList_some] at hps
    exact ⟨_, hps ▸ hsplits.snoc (h.front packet (inHand_of_pending hpending))⟩

/-- Where nothing more decodes, what was taken is all there is. -/
theorem Tracks.settled (h : Tracks v r reader) (hinside : v.main.inside ≠ some r)
    (hend : Packet.deserialize reader.unread = none) :
    Packet.framing.splitAll (v.received r) = (v.taken r, reader.unread) := by
  obtain ⟨ps, hsplits, hps⟩ := h.splits
  rw [(MainPc.nothing_of_not_inside hinside).1, Option.toList_none, List.append_nil] at hps
  rw [hps]
  exact hsplits.eq_splitAll hend

end ProjectE.Threads
