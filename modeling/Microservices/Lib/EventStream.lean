import Mathlib.Data.List.Basic

/-!
# Event streams

How a client takes a stream of server-sent events apart, byte by byte: lines end with LF,
CR or both, a line that begins with a colon is a comment, a `data: ` line adds to the
event, a blank line ends it. As the reader is a fold over bytes, it does not matter how
they are cut into chunks.
-/

structure EventReader where
  /-- The line that has begun. -/
  line : List UInt8 := []
  /-- The data lines since the last blank line. -/
  data : List (List UInt8) := []
  /-- The last byte was a CR: a LF goes with it. -/
  afterCr : Bool := false
  events : List (List UInt8) := []

namespace EventReader

def lf : UInt8 := 10

def cr : UInt8 := 13

def colon : UInt8 := 58

/-- `data: `. -/
def dataPrefix : List UInt8 := [100, 97, 116, 97, 58, 32]

/-- The value of a `data` line. -/
def value? (line : List UInt8) : Option (List UInt8) :=
  if dataPrefix.isPrefixOf line then some (line.drop dataPrefix.length) else none

def endLine (r : EventReader) : EventReader :=
  if r.line = [] then
    { r with
      data := []
      events := if r.data = [] then r.events else r.events ++ [[lf].intercalate r.data] }
  else if r.line.head? = some colon then { r with line := [] }
  else { r with line := [], data := r.data ++ (value? r.line).toList }

def byte (r : EventReader) (b : UInt8) : EventReader :=
  if b = cr then { r.endLine with afterCr := true }
  else if b = lf then
    if r.afterCr then { r with afterCr := false } else r.endLine
  else { r with line := r.line ++ [b], afterCr := false }

def feed (r : EventReader) (bytes : List UInt8) : EventReader := bytes.foldl byte r

/-- **It does not matter how the stream is cut.** -/
theorem feed_chunks (r : EventReader) (chunks : List (List UInt8)) :
    chunks.foldl feed r = r.feed chunks.flatten := by
  induction chunks generalizing r with
  | nil => rfl
  | cons chunk chunks ih =>
      rw [List.foldl_cons, ih, List.flatten_cons]
      exact List.foldl_append.symm

theorem feed_append (r : EventReader) (bytes bytes' : List UInt8) :
    r.feed (bytes ++ bytes') = (r.feed bytes).feed bytes' := List.foldl_append

theorem byte_lf {r : EventReader} (h : r.afterCr = false) : r.byte lf = r.endLine := by
  unfold byte
  rw [if_neg (by decide), if_pos rfl, h]
  rfl

/-! ## Blocks -/

/-- No line ends in it. -/
def Plain (bytes : List UInt8) : Prop := ∀ b ∈ bytes, b ≠ cr ∧ b ≠ lf

theorem Plain.append {bytes bytes' : List UInt8} (h : Plain bytes) (h' : Plain bytes') :
    Plain (bytes ++ bytes') := by
  intro b hb
  rcases List.mem_append.mp hb with hb | hb
  · exact h b hb
  · exact h' b hb

theorem feed_plain {bytes : List UInt8} (h : Plain bytes) (line : List UInt8)
    (data events : List (List UInt8)) :
    feed { line := line, data := data, events := events } bytes
      = { line := line ++ bytes, data := data, events := events } := by
  induction bytes generalizing line with
  | nil =>
      rw [List.append_nil]
      rfl
  | cons b bytes ih =>
      obtain ⟨hcr, hlf⟩ := h b List.mem_cons_self
      have hbyte : byte { line := line, data := data, events := events } b
          = { line := line ++ [b], data := data, events := events } := by
        unfold byte
        rw [if_neg hcr, if_neg hlf]
      have hrest := ih (fun x hx => h x (List.mem_cons_of_mem b hx)) (line ++ [b])
      rw [List.append_assoc] at hrest
      rw [feed, List.foldl_cons, hbyte]
      exact hrest

/-- A line and a blank line. -/
inductive Block where
  | data (value : List UInt8)
  | comment (text : List UInt8)

namespace Block

def line : Block → List UInt8
  | data value => dataPrefix ++ value
  | comment text => colon :: text

def bytes (block : Block) : List UInt8 := block.line ++ [lf, lf]

def value? : Block → Option (List UInt8)
  | data value => some value
  | comment _ => none

end Block

theorem feed_block {block : Block} (h : Plain block.line) (events : List (List UInt8)) :
    feed { events := events } block.bytes = { events := events ++ block.value?.toList } := by
  rw [Block.bytes, feed_append, feed_plain h, List.nil_append]
  cases block with
  | data value =>
      -- the first LF ends the data line, the second one the event
      have hline : endLine { line := dataPrefix ++ value, events := events }
          = { data := [value], events := events } := by
        have hvalue : EventReader.value? (dataPrefix ++ value) = some value := by
          unfold EventReader.value?
          rw [if_pos (List.isPrefixOf_iff_prefix.mpr (List.prefix_append _ _)), List.drop_left]
        unfold endLine
        rw [if_neg (by simp [dataPrefix]), if_neg (by simp [dataPrefix, colon]), hvalue]
        rfl
      have hblank : endLine { data := [value], events := events } = { events := events ++ [value] } := by
        simp [endLine]
      show byte (byte { line := dataPrefix ++ value, events := events } lf) lf = _
      rw [byte_lf (r := { line := dataPrefix ++ value, events := events }) rfl, hline, byte_lf rfl, hblank]
      rfl
  | comment text =>
      show feed _ [lf, lf] = _
      simp [feed, byte, endLine, Block.line, Block.value?, lf, cr]

/-- **Blocks one after the other** read back as their values, the comments left out. -/
theorem feed_blocks {blocks : List Block} (h : ∀ block ∈ blocks, Plain block.line)
    (events : List (List UInt8)) :
    feed { events := events } (blocks.flatMap Block.bytes)
      = { events := events ++ blocks.filterMap Block.value? } := by
  induction blocks generalizing events with
  | nil =>
      rw [List.filterMap_nil, List.append_nil]
      rfl
  | cons block blocks ih =>
      rw [List.flatMap_cons, feed_append, feed_block (h block List.mem_cons_self),
        ih fun b hb => h b (List.mem_cons_of_mem block hb), List.filterMap_cons, List.append_assoc]
      cases block.value? <;> rfl

end EventReader
