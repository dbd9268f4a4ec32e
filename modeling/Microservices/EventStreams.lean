import Mathlib.Data.List.ReduceOption
import Microservices.Chaos.EventHub
import Microservices.Lib.EventStream
import Microservices.Lib.JsonText
import Microservices.Notifications.Delivery

/-!
# The two event streams

The notification service puts JSON texts into a queue and frames them as it yields them,
the chaos controller frames them first. Either way a frame is a `data: ` line and a blank
line, with keepalive comments in between. `json.dumps` writes no line end, whatever is in
the strings and names it is given, so a client that takes the stream apart gets the texts
back.
-/

namespace Microservices

open EventReader Schedule

/-! ## Text on the wire -/

/-- What the response makes of a chunk. -/
def encode (chunk : String) : List UInt8 := Unicode.encodeUtf8 chunk.toList

theorem encode_append (s t : String) : encode (s ++ t) = encode s ++ encode t := by
  unfold encode Unicode.encodeUtf8
  rw [String.toList_append, List.flatMap_append]

/-- A text without line ends. -/
def Printable (text : String) : Prop := ∀ c ∈ text.toList, Json.isPrintable c = true

section

variable {text : String}

theorem Printable.ascii (h : Printable text) : ∀ c ∈ text.toList, c.toNat < 0x80 := by
  intro c hc
  have hrange := Json.toNat_of_isPrintable (h c hc)
  omega

theorem Printable.plain (h : Printable text) : Plain (encode text) := by
  unfold encode
  rw [Unicode.encodeUtf8_ascii h.ascii]
  intro b hb
  obtain ⟨c, hc, rfl⟩ := List.mem_map.mp hb
  have hrange := Json.toNat_of_isPrintable (h c hc)
  have hnat : (UInt8.ofNat c.toNat).toNat = c.toNat := UInt8.toNat_ofNat_of_lt (Nat.lt_trans hrange.2 (by decide))
  refine ⟨fun heq => ?_, fun heq => ?_⟩
  · rw [heq] at hnat
    have hcr : cr.toNat = 13 := rfl
    omega
  · rw [heq] at hnat
    have hlf : lf.toNat = 10 := rfl
    omega

theorem Printable.decodes (h : Printable text) : Unicode.utf8? (encode text) = some text.toList := by
  unfold encode
  rw [Unicode.encodeUtf8_ascii h.ascii]
  exact Unicode.utf8?_ascii h.ascii

end

theorem printable_dumps {v : Json} (h : v.writable = true) : Printable (String.ofList (Json.dumps v)) := by
  unfold Printable
  rw [String.toList_ofList]
  exact Json.dumps_printable v h

/-- `data: <text>`, or a keepalive. -/
def block : Option String → Block
  | some text => .data (encode text)
  | none => .comment (encode " keepalive")

def frame : Option String → String
  | some text => "data: " ++ text ++ "\n\n"
  | none => ": keepalive\n\n"

theorem encode_frame (o : Option String) : encode (frame o) = (block o).bytes := by
  cases o with
  | none => decide
  | some text =>
      unfold frame
      rw [encode_append, encode_append]
      have hbegin : encode "data: " = dataPrefix := by decide
      have hblank : encode "\n\n" = [lf, lf] := by decide
      rw [hbegin, hblank]
      rfl

theorem plain_block {o : Option String} (h : ∀ text ∈ o, Printable text) : Plain (block o).line := by
  cases o with
  | none =>
      have hline : (block none).line.all (fun b => b ≠ cr ∧ b ≠ lf) = true := by decide
      exact fun b hb => of_decide_eq_true (List.all_eq_true.mp hline b hb)
  | some text =>
      have hbegin : dataPrefix.all (fun b => b ≠ cr ∧ b ≠ lf) = true := by decide
      exact Plain.append (fun b hb => of_decide_eq_true (List.all_eq_true.mp hbegin b hb))
        (h text rfl).plain

theorem value?_block (o : Option String) : (block o).value? = o.map encode := by
  cases o <;> rfl

/-- **A client gets the texts back**, in whatever pieces the stream comes. -/
theorem read_frames {frames : List (Option String)} (h : ∀ text ∈ frames.reduceOption, Printable text)
    {chunks : List (List UInt8)} (hcut : chunks.flatten = frames.flatMap fun o => encode (frame o)) :
    (chunks.foldl feed {}).events.map Unicode.utf8?
      = frames.reduceOption.map fun text => some text.toList := by
  have hblocks : frames.flatMap (fun o => encode (frame o)) = (frames.map block).flatMap Block.bytes := by
    rw [List.flatMap_map]
    simp only [encode_frame]
  have hplain : ∀ b ∈ frames.map block, Plain b.line := by
    intro b hb
    obtain ⟨o, ho, rfl⟩ := List.mem_map.mp hb
    refine plain_block fun text htext => h text ?_
    exact List.reduceOption_mem_iff.mpr (Option.mem_def.mp htext ▸ ho)
  have hvalues : (frames.map block).filterMap Block.value? = frames.reduceOption.map encode := by
    rw [List.filterMap_map, ← List.reduceOption_map, List.reduceOption, List.filterMap_map]
    exact List.filterMap_congr fun o _ => value?_block o
  rw [feed_chunks, hcut, hblocks, feed_blocks hplain, List.nil_append, hvalues, List.map_map]
  exact List.map_congr_left fun text htext => (h text htext).decodes

/-! ## The notification service -/

namespace Notifications

/-- Its payload is JSON-serialisable. -/
def StreamEvent.Writable : StreamEvent → Prop
  | .broadcast eventType data _ => eventType.writable = true ∧ data.writable = true
  | _ => True

theorem printable_payload {eventType data : Json} (htype : eventType.writable = true)
    (hdata : data.writable = true) : Printable (payload eventType data) := by
  refine printable_dumps ?_
  simp only [Json.writable, Json.writableMembers, htype, hdata, Bool.and_self]

namespace Broadcaster

/-- What is put into a queue is a JSON text. -/
theorem printable_enqueuedRun {es : List StreamEvent} (h : ∀ e ∈ es, e.Writable) (i : Nat)
    (b : Broadcaster) : ∀ text ∈ enqueuedRun i b es, Printable text := by
  induction es generalizing b with
  | nil =>
      intro text htext
      cases htext
  | cons e es ih =>
      intro text htext
      rw [enqueuedRun] at htext
      rcases List.mem_append.mp htext with hnow | hthen
      · cases e with
        | broadcast eventType data targetUserIds =>
            have he := h _ List.mem_cons_self
            change text ∈ b.connections[i]?.elim [] _ at hnow
            cases hi : b.connections[i]? with
            | none =>
                rw [hi] at hnow
                cases hnow
            | some c =>
                rw [hi] at hnow
                rw [List.eq_of_mem_replicate hnow]
                exact printable_payload he.1 he.2
        | _ => cases hnow
      · cases hs : b.step e with
        | none =>
            rw [hs] at hthen
            cases hthen
        | some b' =>
            rw [hs] at hthen
            exact ih (fun e' h' => h e' (List.mem_cons_of_mem e h')) b' text hthen

end Broadcaster

/-- The bytes a connection has been sent. -/
def Connection.stream (c : Connection) : List UInt8 := c.frames.flatMap fun f => encode f.text

theorem stream_lossless {es : List StreamEvent} (hwritable : ∀ e ∈ es, e.Writable) {b : Broadcaster}
    (hrun : exec Broadcaster.step {} es = some b) {i : Nat} {c : Connection}
    (hi : b.connections[i]? = some c) {chunks : List (List UInt8)} (hcut : chunks.flatten = c.stream) :
    (chunks.foldl feed {}).events.map Unicode.utf8? ++ c.unread.map (fun text => some text.toList)
      = (Broadcaster.enqueuedRun i {} es).map fun text => some text.toList := by
  have hcarries : c.queue.Carries c.reads ([] ++ Broadcaster.enqueuedRun i {} es) :=
    Broadcaster.carries_run Broadcaster.registered_init hrun (by intro c hc; cases hc) (fun _ => rfl) hi
  have hboth : c.reads ++ c.unread = Broadcaster.enqueuedRun i {} es := hcarries
  have hreads : c.reads = (c.frames.map Frame.payload?).reduceOption := by
    rw [List.reduceOption, List.filterMap_map]
    rfl
  have hstream : c.stream = (c.frames.map Frame.payload?).flatMap fun o => encode (frame o) := by
    rw [List.flatMap_map]
    refine List.flatMap_congr fun f _ => ?_
    cases f <;> rfl
  have hprintable : ∀ text ∈ (c.frames.map Frame.payload?).reduceOption, Printable text := by
    intro text htext
    refine Broadcaster.printable_enqueuedRun hwritable i {} text ?_
    rw [← hboth, hreads]
    exact List.mem_append_left _ htext
  rw [read_frames hprintable (hcut.trans hstream), ← hreads, ← hboth, List.map_append]

end Notifications

/-! ## The chaos controller -/

namespace Chaos

def Event.text (event : Event) : String := String.ofList (Json.dumps event.json)

/-- Its payload is JSON-serialisable. -/
def HubEvent.Writable : HubEvent → Prop
  | .publish event => event.json.writable = true
  | _ => True

namespace EventHub

variable {hub hub' : EventHub} {e : HubEvent} {i : Nat} {s : Subscription}

/-- What the step puts into the queue. -/
def enqueued (hub : EventHub) (i : Nat) : HubEvent → List String
  | .publish event =>
      if i ∈ hub.subscribers ∧ hub.queues[i]?.any (fun s => ¬ s.Full) then [event.text] else []
  | _ => []

def enqueuedRun (i : Nat) : EventHub → List HubEvent → List String
  | _, [] => []
  | hub, e :: es =>
      hub.enqueued i e ++
        match hub.step e with
        | none => []
        | some hub' => enqueuedRun i hub' es

/-- The queue has been given `taken`: what is not in it any more has been yielded, in order and among
keepalives. -/
def Carries (s : Subscription) (taken : List String) : Prop :=
  ∃ (frames : List (Option String)) (unread : List String), s.chunks = frames.map frame
    ∧ s.queue.items = unread.map (fun text => frame (some text)) ∧ frames.reduceOption ++ unread = taken

theorem carries_put {taken : List String} (h : Carries s taken) (event : Event) :
    Carries (s.put event.line) (taken ++ if s.Full then [] else [event.text]) := by
  obtain ⟨frames, unread, hchunks, hitems, rfl⟩ := h
  by_cases hfull : s.Full
  · have hsame : s.put event.line = s := by
      unfold Subscription.put
      cases hput : s.queue.put? event.line with
      | none => rfl
      | some queue => exact absurd hfull (Nat.ne_of_lt (Mailbox.put?_eq_some hput).1)
    rw [hsame, if_pos hfull, List.append_nil]
    exact ⟨frames, unread, hchunks, hitems, rfl⟩
  · have hchunks' : (s.put event.line).chunks = s.chunks := by
      unfold Subscription.put
      cases s.queue.put? event.line <;> rfl
    rw [if_neg hfull, List.append_assoc]
    refine ⟨frames, unread ++ [event.text], hchunks'.trans hchunks, ?_, rfl⟩
    rw [items_put_of_not_full hfull, hitems, List.map_append]
    rfl

theorem carries_step {taken : List String} (h : hub.Listed) (hs : hub.step e = some hub')
    (hi : hub.queues[i]? = some s) (hcarries : Carries s taken) :
    ∃ s', hub'.queues[i]? = some s' ∧ Carries s' (taken ++ hub.enqueued i e) := by
  have hlt := (List.getElem?_eq_some_iff.mp hi).1
  have hquiet : ∀ s', Carries s' taken → Carries s' (taken ++ []) := by
    intro s' h'
    rwa [List.append_nil]
  cases e with
  | subscribe =>
      cases hs
      exact ⟨s, (List.getElem?_append_left hlt).trans hi, hquiet s hcarries⟩
  | unsubscribe j =>
      unfold step at hs
      dsimp only at hs
      split at hs
      · cases hs
        exact ⟨s, hi, hquiet s hcarries⟩
      · cases hs
  | publish event =>
      cases hs
      refine ⟨_, (getElem?_publish h event i).trans (by rw [hi, Option.map_some]), ?_⟩
      rw [enqueued, hi]
      by_cases hmem : i ∈ hub.subscribers
      · have hput := carries_put hcarries event
        rw [if_pos hmem]
        by_cases hfull : s.Full
        · simpa [hmem, hfull] using hput
        · simpa [hmem, hfull] using hput
      · rw [if_neg hmem, if_neg fun hc => hmem hc.1, List.append_nil]
        exact hcarries
  | get j =>
      obtain ⟨t, hj, hs⟩ := Option.bind_eq_some_iff.mp hs
      obtain ⟨⟨line, queue⟩, hget, hs⟩ := Option.map_eq_some_iff.mp hs
      cases hs
      by_cases hij : i = j
      · subst hij
        cases hi.symm.trans hj
        refine ⟨_, List.getElem?_set_self hlt, hquiet _ ?_⟩
        obtain ⟨frames, unread, hchunks, hitems, rfl⟩ := hcarries
        rw [Mailbox.get?_eq_some hget] at hitems
        cases unread with
        | nil => cases hitems
        | cons text unread =>
            obtain ⟨hline, hitems⟩ := List.cons_eq_cons.mp hitems
            refine ⟨frames ++ [some text], unread, ?_, hitems, ?_⟩
            · rw [List.map_append, hchunks, hline]
              rfl
            · rw [List.reduceOption_append]
              simp
      · exact ⟨s, (List.getElem?_set_ne (Ne.symm hij)).trans hi, hquiet s hcarries⟩
  | timeout j =>
      obtain ⟨t, hj, hs⟩ := Option.map_eq_some_iff.mp hs
      cases hs
      by_cases hij : i = j
      · subst hij
        cases hi.symm.trans hj
        refine ⟨_, List.getElem?_set_self hlt, hquiet _ ?_⟩
        obtain ⟨frames, unread, hchunks, hitems, rfl⟩ := hcarries
        refine ⟨frames ++ [none], unread, ?_, hitems, ?_⟩
        · rw [List.map_append, hchunks]
          rfl
        · rw [List.reduceOption_append]
          simp
      · exact ⟨s, (List.getElem?_set_ne (Ne.symm hij)).trans hi, hquiet s hcarries⟩

/-- A queue that was not there before is a new one. -/
theorem new_of_step {s' : Subscription} (hs : hub.step e = some hub') (hi : hub.queues[i]? = none)
    (hi' : hub'.queues[i]? = some s') : s' = {} ∧ hub.enqueued i e = [] := by
  have hout : hub.queues.length ≤ i := List.getElem?_eq_none_iff.mp hi
  have hin : i < hub'.queues.length := (List.getElem?_eq_some_iff.mp hi').1
  cases e with
  | subscribe =>
      cases hs
      rcases Slots.getElem?_concat_cases hi' with hnew | hold
      · exact ⟨hnew, rfl⟩
      · rw [hi] at hold
        cases hold
  | unsubscribe j =>
      unfold step at hs
      dsimp only at hs
      split at hs
      · cases hs
        exact absurd hin (Nat.not_lt.mpr hout)
      · cases hs
  | publish event =>
      cases hs
      rw [length_publish] at hin
      exact absurd hin (Nat.not_lt.mpr hout)
  | get j =>
      obtain ⟨t, _, hs⟩ := Option.bind_eq_some_iff.mp hs
      obtain ⟨r, _, hs⟩ := Option.map_eq_some_iff.mp hs
      cases hs
      rw [List.length_set] at hin
      exact absurd hin (Nat.not_lt.mpr hout)
  | timeout j =>
      obtain ⟨t, _, hs⟩ := Option.map_eq_some_iff.mp hs
      cases hs
      rw [List.length_set] at hin
      exact absurd hin (Nat.not_lt.mpr hout)

theorem enqueued_of_none (hi : hub.queues[i]? = none) (e : HubEvent) : hub.enqueued i e = [] := by
  cases e with
  | publish event =>
      rw [enqueued, hi, if_neg fun h => by cases h.2]
  | _ => rfl

theorem carries_run {es : List HubEvent} {taken : List String} (h : hub.Listed)
    (hrun : exec step hub es = some hub') (hthere : ∀ s, hub.queues[i]? = some s → Carries s taken)
    (hnew : hub.queues[i]? = none → taken = []) (hi : hub'.queues[i]? = some s) :
    Carries s (taken ++ enqueuedRun i hub es) := by
  induction es generalizing hub taken with
  | nil =>
      cases hrun
      rw [enqueuedRun, List.append_nil]
      exact hthere s hi
  | cons e es ih =>
      obtain ⟨hub₁, hs, hlater⟩ := exec_cons_inv hrun
      rw [enqueuedRun, hs, ← List.append_assoc]
      refine ih (listed_step h hs) hlater ?_ ?_
      · intro s₁ hs₁
        cases hi₀ : hub.queues[i]? with
        | none =>
            rw [(new_of_step hs hi₀ hs₁).1, hnew hi₀, enqueued_of_none hi₀]
            exact ⟨[], [], rfl, rfl, rfl⟩
        | some s₀ =>
            obtain ⟨s₂, hs₂, hcarries⟩ := carries_step h hs hi₀ (hthere s₀ hi₀)
            rw [hs₁] at hs₂
            cases hs₂
            exact hcarries
      · intro hs₁
        cases hi₀ : hub.queues[i]? with
        | none =>
            rw [hnew hi₀, enqueued_of_none hi₀]
            rfl
        | some s₀ =>
            obtain ⟨s₂, hs₂, _⟩ := carries_step h hs hi₀ (hthere s₀ hi₀)
            rw [hs₁] at hs₂
            cases hs₂

theorem printable_enqueuedRun {es : List HubEvent} (h : ∀ e ∈ es, e.Writable) (i : Nat)
    (hub : EventHub) : ∀ text ∈ enqueuedRun i hub es, Printable text := by
  induction es generalizing hub with
  | nil =>
      intro text htext
      cases htext
  | cons e es ih =>
      intro text htext
      rw [enqueuedRun] at htext
      rcases List.mem_append.mp htext with hnow | hthen
      · cases e with
        | publish event =>
            unfold enqueued at hnow
            dsimp only at hnow
            split at hnow
            · rw [List.mem_singleton.mp hnow]
              exact printable_dumps (h _ List.mem_cons_self)
            · cases hnow
        | _ => cases hnow
      · cases hs : hub.step e with
        | none =>
            rw [hs] at hthen
            cases hthen
        | some hub' =>
            rw [hs] at hthen
            exact ih (fun e' h' => h e' (List.mem_cons_of_mem e h')) hub' text hthen

end EventHub

/-- The bytes a subscriber has been sent. -/
def Subscription.stream (s : Subscription) : List UInt8 := s.chunks.flatMap encode

theorem stream_lossless {es : List HubEvent} (hwritable : ∀ e ∈ es, e.Writable) {hub : EventHub}
    (hrun : exec EventHub.step {} es = some hub) {i : Nat} {s : Subscription}
    (hi : hub.queues[i]? = some s) {chunks : List (List UInt8)} (hcut : chunks.flatten = s.stream) :
    ∃ unread : List String, s.queue.items = unread.map (fun text => frame (some text))
      ∧ (chunks.foldl feed {}).events.map Unicode.utf8? ++ unread.map (fun text => some text.toList)
        = (EventHub.enqueuedRun i {} es).map fun text => some text.toList := by
  have hcarries : EventHub.Carries s ([] ++ EventHub.enqueuedRun i {} es) :=
    EventHub.carries_run EventHub.listed_init hrun (fun s hs => by cases hs) (fun _ => rfl) hi
  obtain ⟨frames, unread, hchunks, hitems, hboth⟩ := hcarries
  rw [List.nil_append] at hboth
  have hstream : s.stream = frames.flatMap fun o => encode (frame o) := by
    rw [Subscription.stream, hchunks, List.flatMap_map]
  have hprintable : ∀ text ∈ frames.reduceOption, Printable text := fun text htext =>
    EventHub.printable_enqueuedRun hwritable i {} text (hboth ▸ List.mem_append_left _ htext)
  refine ⟨unread, hitems, ?_⟩
  rw [read_frames hprintable (hcut.trans hstream), ← hboth, List.map_append]

end Chaos

/--
**Framing is lossless.**

Whatever the payloads, whenever the keepalives come and however the bytes are cut: a client that
splits the stream of a connection at blank lines, leaves out the comments and takes the `data: `
off has the JSON texts that were enqueued for it, in order, up to those still in its queue. That
goes for the notification service and for the chaos controller.
-/
theorem sse_framing_lossless :
    (∀ es : List Notifications.StreamEvent, (∀ e ∈ es, e.Writable) →
      ∀ b, exec Notifications.Broadcaster.step {} es = some b →
      ∀ i c, b.connections[i]? = some c → ∀ chunks : List (List UInt8), chunks.flatten = c.stream →
        (chunks.foldl feed {}).events.map Unicode.utf8? ++ c.unread.map (fun text => some text.toList)
          = (Notifications.Broadcaster.enqueuedRun i {} es).map fun text => some text.toList)
    ∧ ∀ es : List Chaos.HubEvent, (∀ e ∈ es, e.Writable) →
      ∀ hub, exec Chaos.EventHub.step {} es = some hub →
      ∀ i s, hub.queues[i]? = some s → ∀ chunks : List (List UInt8), chunks.flatten = s.stream →
        ∃ unread : List String, s.queue.items = unread.map (fun text => frame (some text))
          ∧ (chunks.foldl feed {}).events.map Unicode.utf8? ++ unread.map (fun text => some text.toList)
            = (Chaos.EventHub.enqueuedRun i {} es).map fun text => some text.toList :=
  ⟨fun _ hwritable _ hrun _ _ hi _ hcut => Notifications.stream_lossless hwritable hrun hi hcut,
    fun _ hwritable _ hrun _ _ hi _ hcut => Chaos.stream_lossless hwritable hrun hi hcut⟩

/-! ### A text with frames in it -/

/-- Line breaks, the text of a frame and of a keepalive, quotes and a letter outside ASCII. -/
def framesInside : Json := .str "one\n\ndata: two\r\n\r\n: keepalive\n\n\\\"é\""

def notified : List Notifications.StreamEvent :=
  [.subscribe "ann", .start 0, .timeout 0, .resume 0, .broadcast (.str "note") framesInside ["ann", "ann"],
    .read 0, .resume 0, .timeout 0]

def watched : List Chaos.HubEvent :=
  [.subscribe, .timeout 0, .publish { ts := "1e-07", kind := "log", payload := [("msg", framesInside)] },
    .get 0]

/-- One byte at a time. -/
theorem framesInside_lossless :
    (∃ b c, exec Notifications.Broadcaster.step {} notified = some b ∧ b.connections[0]? = some c
      ∧ ((c.stream.map fun x => [x]).foldl feed {}).events.map Unicode.utf8?
          ++ c.unread.map (fun text => some text.toList)
        = List.replicate 2 (some (Notifications.payload (.str "note") framesInside).toList))
    ∧ ∃ hub s, ∃ unread : List String, exec Chaos.EventHub.step {} watched = some hub ∧ hub.queues[0]? = some s
      ∧ ((s.stream.map fun x => [x]).foldl feed {}).events.map Unicode.utf8?
          ++ unread.map (fun text => some text.toList)
        = (Chaos.EventHub.enqueuedRun 0 {} watched).map fun text => some text.toList := by
  have hcut : ∀ bytes : List UInt8, (bytes.map fun x => [x]).flatten = bytes := by
    intro bytes
    rw [← List.flatMap_def, List.flatMap_singleton']
  constructor
  · have hends : ((exec Notifications.Broadcaster.step {} notified).bind fun b =>
        b.connections[0]?).isSome = true := by decide +kernel
    obtain ⟨c, hends⟩ := Option.isSome_iff_exists.mp hends
    obtain ⟨b, hrun, hi⟩ := Option.bind_eq_some_iff.mp hends
    have hwritable : ∀ e ∈ notified, e.Writable := by
      simp [notified, Notifications.StreamEvent.Writable, framesInside, Json.writable]
    have hput : Notifications.Broadcaster.enqueuedRun 0 {} notified
        = List.replicate 2 (Notifications.payload (.str "note") framesInside) := by decide +kernel
    have hread := sse_framing_lossless.1 notified hwritable b hrun 0 c hi _ (hcut c.stream)
    rw [hput, List.map_replicate] at hread
    exact ⟨b, c, hrun, hi, hread⟩
  · have hends : ((exec Chaos.EventHub.step {} watched).bind fun hub => hub.queues[0]?).isSome = true := by
      decide +kernel
    obtain ⟨s, hends⟩ := Option.isSome_iff_exists.mp hends
    obtain ⟨hub, hrun, hi⟩ := Option.bind_eq_some_iff.mp hends
    have hwritable : ∀ e ∈ watched, e.Writable := by
      have hpublish : (Chaos.Event.json
          { ts := "1e-07", kind := "log", payload := [("msg", framesInside)] }).writable = true := by
        decide +kernel
      simp [watched, Chaos.HubEvent.Writable, hpublish]
    obtain ⟨unread, _, hread⟩ := sse_framing_lossless.2 watched hwritable hub hrun 0 s hi _ (hcut s.stream)
    exact ⟨hub, s, unread, hrun, hi, hread⟩

end Microservices
