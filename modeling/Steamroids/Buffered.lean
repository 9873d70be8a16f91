import Mathlib.Data.List.Basic

/-!
# Buffered Readers

A source gives its content in chunks, cut as it likes, and then it is closed, fails or keeps
silent. A reader in front of it keeps what it has been given and not yet handed out, so that it can
be asked for everything up to a stop, and afterwards be read on as the source itself.

What is read does not depend on how the content is cut. `Reader.content` is everything that is
still to be read, and the operations are described by what they take off its front.

## Main results

* `Reader.yields_content`: reads give the content, in order and without a gap.
* `Reader.readUntil_of_append`: a reader takes what stands up to the first stop.
* `Reader.readUntil_of_notMem`: without a stop it takes all, if the source is closed then.
* `Reader.readUntil_of_closed`: from a closed source it takes one piece after the other.
-/

namespace Buffered

variable {α ε : Type*}

/-! ### Readers -/

/-- What one read of the source gives. It is not empty, since an empty read is the end. -/
structure Chunk (α : Type*) where
  items : List α
  nonempty : items ≠ []
  deriving DecidableEq

/-- Why a read gives nothing: the source fails, or it keeps silent for as long as one waits. -/
inductive Broken (ε : Type*)
  | failed (error : ε)
  | silent
  deriving DecidableEq, Repr

/-- A reader and the source behind it: what is buffered, the chunks to come, and what is behind
them, with `none` for a source that is closed. -/
structure Reader (α ε : Type*) where
  buffer : List α
  chunks : List (Chunk α)
  ending : Option (Broken ε)
  deriving DecidableEq

/-- All that is still to be read. -/
def Reader.content (r : Reader α ε) : List α := r.buffer ++ r.chunks.flatMap Chunk.items

/-! ### Reading on -/

/-- Read at most `size` items. A read goes to the source only if nothing is buffered. -/
def Reader.read (size : Nat) (r : Reader α ε) : Except (Broken ε) (List α × Reader α ε) :=
  match r.buffer, r.chunks with
  | [], [] => r.ending.elim (.ok ([], r)) .error
  | [], chunk :: chunks =>
      .ok (chunk.items.take size, ⟨chunk.items.drop size, chunks, r.ending⟩)
  | buffer, chunks => .ok (buffer.take size, ⟨buffer.drop size, chunks, r.ending⟩)

/-- What reads of the given sizes give together, up to a failure. -/
def Reader.drain : List Nat → Reader α ε → List α
  | [], _ => []
  | size :: sizes, r =>
      match r.read size with
      | .ok (part, r') => part ++ r'.drain sizes
      | .error _ => []

/-- A reader gives a list: whatever is read from it is a beginning of the list, and enough reads
give all of it. -/
structure Reader.Yields (r : Reader α ε) (items : List α) : Prop where
  in_order : ∀ sizes, r.drain sizes <+: items
  complete : ∀ sizes : List Nat, (∀ size ∈ sizes, 0 < size) → items.length ≤ sizes.length →
    r.drain sizes = items

/-- A part of positive size is not empty. -/
theorem take_ne_nil {items : List α} {size : Nat} (hitems : items ≠ []) (hsize : 0 < size) :
    items.take size ≠ [] := by
  intro hnil
  rcases List.take_eq_nil_iff.mp hnil with h | h
  · omega
  · exact hitems h

/-- A read takes from the front of the content, and fails only at its end. -/
theorem Reader.read_cases (size : Nat) (r : Reader α ε) :
    r.content = [] ∧ (r.read size = .ok ([], r) ∨ ∃ b, r.read size = .error b) ∨
      ∃ (part : List α) (r' : Reader α ε), r.read size = .ok (part, r') ∧
        part ++ r'.content = r.content ∧ (0 < size → part ≠ []) := by
  have hcontent : ∀ (items : List α) (chunks : List (Chunk α)),
      items.take size ++ (⟨items.drop size, chunks, r.ending⟩ : Reader α ε).content =
        items ++ chunks.flatMap Chunk.items := by
    intro items chunks
    rw [Reader.content, ← List.append_assoc, List.take_append_drop]
  obtain ⟨buffer, chunks, ending⟩ := r
  rcases buffer with _ | ⟨a, buffer⟩
  · rcases chunks with _ | ⟨chunk, chunks⟩
    · refine .inl ⟨rfl, ?_⟩
      rcases ending with _ | b
      · exact .inl rfl
      · exact .inr ⟨b, rfl⟩
    · exact .inr ⟨_, _, rfl, hcontent chunk.items chunks, take_ne_nil chunk.nonempty⟩
  · exact .inr ⟨_, _, rfl, hcontent (a :: buffer) chunks, take_ne_nil (by simp)⟩

/-- **Reading on gives the content**, in order and without a gap. -/
theorem Reader.yields_content (r : Reader α ε) : r.Yields r.content where
  in_order sizes := by
    induction sizes generalizing r with
    | nil => exact List.nil_prefix
    | cons size sizes ih =>
        rcases r.read_cases size with ⟨-, hread | ⟨b, hread⟩⟩ | ⟨part, r', hread, hcontent, -⟩
        · simpa only [drain, hread, List.nil_append] using ih r
        · simp only [drain, hread, List.nil_prefix]
        · rw [drain, hread, ← hcontent]
          exact (List.prefix_append_right_inj part).mpr (ih r')
  complete sizes := by
    induction sizes generalizing r with
    | nil =>
        intro _ hlen
        exact (List.eq_nil_of_length_eq_zero (Nat.le_zero.mp hlen)).symm
    | cons size sizes ih =>
        intro hpos hlen
        obtain ⟨hsize, hsizes⟩ := List.forall_mem_cons.mp hpos
        rcases r.read_cases size with
          ⟨hnil, hread | ⟨b, hread⟩⟩ | ⟨part, r', hread, hcontent, hpart⟩
        · simpa only [drain, hread, List.nil_append] using
            ih r hsizes (by rw [hnil]; exact Nat.zero_le _)
        · rw [drain, hread, hnil]
        · have hlength := congrArg List.length hcontent
          have hpartPos := List.length_pos_of_ne_nil (hpart hsize)
          rw [List.length_append] at hlength
          rw [List.length_cons] at hlen
          rw [drain, hread, ← hcontent]
          exact congrArg (part ++ ·) (ih r' hsizes (by omega))

/-! ### Up to a stop -/

/-- The part of a text behind a beginning that has no stop in it. -/
theorem exists_append_of_notMem {stop : α} {buffer later text rest : List α}
    (hbuffer : stop ∉ buffer) (h : buffer ++ later = text ++ stop :: rest) :
    ∃ text', text = buffer ++ text' ∧ later = text' ++ stop :: rest := by
  rcases List.append_eq_append_iff.mp h with ⟨text', htext, hlater⟩ | ⟨extra, rfl, hextra⟩
  · exact ⟨text', htext, hlater⟩
  · rcases extra with _ | ⟨a, extra⟩
    · exact ⟨[], by simp, by simpa using hextra.symm⟩
    · obtain rfl : stop = a := (List.cons.inj hextra).1
      exact absurd (by simp) hbuffer

variable [DecidableEq α]

/-- Cut behind the first stop. -/
def through (stop : α) : List α → Option (List α × List α)
  | [] => none
  | a :: rest =>
      if a = stop then some ([a], rest)
      else (through stop rest).map fun (before, after) => (a :: before, after)

/-- The text up to its first stop is cut off with the stop. -/
theorem through_append {stop : α} {text : List α} (h : stop ∉ text) (rest : List α) :
    through stop (text ++ stop :: rest) = some (text ++ [stop], rest) := by
  induction text with
  | nil => simp [through]
  | cons a text ih =>
      obtain ⟨ha, htext⟩ := List.ne_and_not_mem_of_not_mem_cons h
      simp [through, Ne.symm ha, ih htext]

/-- A text without the stop is not cut. -/
theorem through_of_notMem {stop : α} {text : List α} (h : stop ∉ text) :
    through stop text = none := by
  induction text with
  | nil => rfl
  | cons a text ih =>
      obtain ⟨ha, htext⟩ := List.ne_and_not_mem_of_not_mem_cons h
      simp [through, Ne.symm ha, ih htext]

/-- Take from the buffer, and from the chunks as long as no stop is met. -/
def readChunks (stop : α) (ending : Option (Broken ε)) (taken buffer : List α) :
    List (Chunk α) → Except (Broken ε) (List α × Reader α ε)
  | [] =>
      match through stop buffer with
      | some (part, rest) => .ok (taken ++ part, ⟨rest, [], ending⟩)
      | none => ending.elim (.ok (taken ++ buffer, ⟨[], [], ending⟩)) .error
  | chunk :: chunks =>
      match through stop buffer with
      | some (part, rest) => .ok (taken ++ part, ⟨rest, chunk :: chunks, ending⟩)
      | none => readChunks stop ending (taken ++ buffer) chunk.items chunks

/-- Read everything through the first stop, or through the end of a closed source. -/
def Reader.readUntil (stop : α) (r : Reader α ε) : Except (Broken ε) (List α × Reader α ε) :=
  readChunks stop r.ending [] r.buffer r.chunks

/-- A stop in the buffer ends the read at once. -/
theorem readChunks_of_through {stop : α} {ending : Option (Broken ε)} {taken buffer : List α}
    {chunks : List (Chunk α)} {part rest : List α} (h : through stop buffer = some (part, rest)) :
    readChunks stop ending taken buffer chunks = .ok (taken ++ part, ⟨rest, chunks, ending⟩) := by
  cases chunks <;> simp only [readChunks, h]

/-- A stop anywhere ahead ends the read there, however the text is chunked. -/
theorem readChunks_of_append {stop : α} {ending : Option (Broken ε)} {taken buffer : List α}
    {chunks : List (Chunk α)} {text rest : List α} (htext : stop ∉ text)
    (h : buffer ++ chunks.flatMap Chunk.items = text ++ stop :: rest) :
    ∃ r : Reader α ε, readChunks stop ending taken buffer chunks =
      .ok (taken ++ (text ++ [stop]), r) ∧ r.content = rest ∧ r.ending = ending := by
  induction chunks generalizing taken buffer text with
  | nil =>
      rw [List.flatMap_nil, List.append_nil] at h
      rw [readChunks_of_through (h ▸ through_append htext rest)]
      exact ⟨_, rfl, List.append_nil rest, rfl⟩
  | cons chunk chunks ih =>
      by_cases hmem : stop ∈ buffer
      · obtain ⟨before, after, rfl, hbefore⟩ := List.eq_append_cons_of_mem hmem
        rw [List.append_assoc, List.cons_append] at h
        have hcut := h ▸ through_append hbefore (after ++ (chunk :: chunks).flatMap Chunk.items)
        rw [through_append htext rest] at hcut
        obtain ⟨hpart, hrest⟩ := Prod.mk.inj (Option.some.inj hcut)
        rw [readChunks_of_through (through_append hbefore after)]
        exact ⟨⟨after, chunk :: chunks, ending⟩, by rw [hpart], hrest.symm, rfl⟩
      · obtain ⟨text', rfl, hlater⟩ := exists_append_of_notMem hmem h
        have htext' : stop ∉ text' := fun hstop => htext (List.mem_append_right buffer hstop)
        obtain ⟨r, hread, hr⟩ := @ih (taken ++ buffer) chunk.items text' htext' hlater
        refine ⟨r, ?_, hr⟩
        rw [readChunks, through_of_notMem hmem]
        simpa only [List.append_assoc] using hread

/-- **A reader takes what stands up to the first stop**, however the content is cut. -/
theorem Reader.readUntil_of_append {stop : α} {r : Reader α ε} {text rest : List α}
    (htext : stop ∉ text) (h : r.content = text ++ stop :: rest) :
    ∃ r' : Reader α ε, r.readUntil stop = .ok (text ++ [stop], r') ∧ r'.content = rest ∧
      r'.ending = r.ending :=
  readChunks_of_append htext h

/-- Without a stop ahead the read takes everything, or fails with the stream. -/
theorem readChunks_of_notMem {stop : α} {ending : Option (Broken ε)} {taken buffer : List α}
    {chunks : List (Chunk α)} (h : stop ∉ buffer ++ chunks.flatMap Chunk.items) :
    readChunks stop ending taken buffer chunks =
      ending.elim (.ok (taken ++ (buffer ++ chunks.flatMap Chunk.items), ⟨[], [], ending⟩))
        .error := by
  have hbuffer : through stop buffer = none :=
    through_of_notMem fun hmem => h (List.mem_append_left _ hmem)
  induction chunks generalizing taken buffer with
  | nil => simp only [readChunks, hbuffer, List.flatMap_nil, List.append_nil]
  | cons chunk chunks ih =>
      have hlater : stop ∉ chunk.items ++ chunks.flatMap Chunk.items :=
        fun hmem => h (List.mem_append_right _ hmem)
      simp only [readChunks, hbuffer]
      rw [ih hlater (through_of_notMem fun hmem => hlater (List.mem_append_left _ hmem)),
        List.append_assoc, List.flatMap_cons]

/-- **Without a stop it takes all**, if the source is closed behind it. -/
theorem Reader.readUntil_of_notMem {stop : α} {r : Reader α ε} (h : stop ∉ r.content) :
    r.readUntil stop = r.ending.elim (.ok (r.content, ⟨[], [], r.ending⟩)) .error :=
  readChunks_of_notMem h

/-- What a reader takes one after the other, from a source that is closed. -/
def pieces (stop : α) : List α → List (List α)
  | [] => []
  | a :: rest =>
      if a = stop then [a] :: pieces stop rest
      else
        match pieces stop rest with
        | [] => [[a]]
        | piece :: later => (a :: piece) :: later

/-- The first piece goes up to the first stop. -/
theorem pieces_append {stop : α} {text : List α} (h : stop ∉ text) (rest : List α) :
    pieces stop (text ++ stop :: rest) = (text ++ [stop]) :: pieces stop rest := by
  induction text with
  | nil => simp [pieces]
  | cons a text ih =>
      obtain ⟨ha, htext⟩ := List.ne_and_not_mem_of_not_mem_cons h
      simp [pieces, Ne.symm ha, ih htext]

/-- A text without a stop is one piece. -/
theorem pieces_of_notMem {stop : α} {text : List α} (h : stop ∉ text) (hne : text ≠ []) :
    pieces stop text = [text] := by
  induction text with
  | nil => exact absurd rfl hne
  | cons a text ih =>
      obtain ⟨ha, htext⟩ := List.ne_and_not_mem_of_not_mem_cons h
      rcases text with _ | ⟨b, text⟩
      · simp [pieces, Ne.symm ha]
      · rw [pieces, if_neg (Ne.symm ha), ih htext (by simp)]

/-- **From a closed source** a reader takes the pieces one after the other, and then nothing. -/
theorem Reader.readUntil_of_closed (stop : α) {r : Reader α ε} (h : r.ending = none) :
    ∃ (piece : List α) (r' : Reader α ε), r.readUntil stop = .ok (piece, r') ∧
      r'.ending = none ∧
      (r.content = [] ∧ piece = [] ∨
        piece ≠ [] ∧ pieces stop r.content = piece :: pieces stop r'.content) := by
  by_cases hmem : stop ∈ r.content
  · obtain ⟨text, rest, hcontent, htext⟩ := List.eq_append_cons_of_mem hmem
    obtain ⟨r', hread, hrest, hending⟩ := r.readUntil_of_append htext hcontent
    refine ⟨_, r', hread, hending.trans h, .inr ⟨by simp, ?_⟩⟩
    rw [hcontent, pieces_append htext, hrest]
  · have hread := r.readUntil_of_notMem hmem
    rw [h, Option.elim_none] at hread
    refine ⟨_, _, hread, rfl, ?_⟩
    by_cases hnil : r.content = []
    · exact .inl ⟨hnil, hnil⟩
    · exact .inr ⟨hnil, pieces_of_notMem hmem hnil⟩

end Buffered
