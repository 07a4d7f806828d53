import TextEmbed.Sink.Bytes

/-!
# What byte sinks take

A byte sink takes the bytes written to it up to its limit, however few it takes at a time. So a line
goes in whole if there is room for it and its line feed, and otherwise as far as there is room.

## Main results

* `writeAll_eq_ok` and `writeAll_eq_error`: what a write leaves behind, with and without room;
* `putLine_eq_ok` and `putLine_eq_error`: the same for a line;
* `eq_extend_of_putLine_eq_ok`: a sink of any kind that takes a line holds all of it;
* `exists_of_putLine_eq_error`: one that refuses a line doesn't.
-/

namespace TextEmbed.ByteSink

/-- The sink behind some more bytes. -/
def extend (bytes : List UInt8) (sink : ByteSink) : ByteSink :=
  { sink with written := sink.written ++ bytes }

@[simp]
theorem limit_extend (bytes : List UInt8) (sink : ByteSink) :
    (sink.extend bytes).limit = sink.limit := rfl

@[simp]
theorem step_extend (bytes : List UInt8) (sink : ByteSink) :
    (sink.extend bytes).step = sink.step := rfl

@[simp]
theorem refusal_extend (bytes : List UInt8) (sink : ByteSink) :
    (sink.extend bytes).refusal = sink.refusal := rfl

@[simp]
theorem toList_written_extend (bytes : List UInt8) (sink : ByteSink) :
    (sink.extend bytes).written.toList = sink.written.toList ++ bytes := by
  simp [extend]

@[simp]
theorem extend_nil (sink : ByteSink) : sink.extend [] = sink := by
  simp [extend]

@[simp]
theorem extend_extend (first second : List UInt8) (sink : ByteSink) :
    (sink.extend first).extend second = sink.extend (first ++ second) := by
  have h : sink.written ++ first ++ second = sink.written ++ (first ++ second) := by
    apply Array.ext'
    simp
  simp only [extend, h]

@[simp]
theorem room?_extend (bytes : List UInt8) (sink : ByteSink) :
    (sink.extend bytes).room? = sink.room?.map (· - bytes.length) := by
  have h : (sink.extend bytes).written.size = sink.written.size + bytes.length := by
    rw [← Array.length_toList, toList_written_extend, List.length_append, Array.length_toList]
  simp only [room?, limit_extend, h, Option.map_map]
  congr 1
  funext limit
  exact Nat.sub_add_eq limit sink.written.size bytes.length

/-- Whether the sink has room for some bytes. -/
def Fits (bytes : List UInt8) (sink : ByteSink) : Prop :=
  ∀ room ∈ sink.room?, bytes.length ≤ room

/-- How the full sink fails. -/
def fault (sink : ByteSink) : Fault :=
  sink.refusal.getD .nothingTaken

@[simp]
theorem fault_extend (bytes : List UInt8) (sink : ByteSink) :
    (sink.extend bytes).fault = sink.fault := rfl

/-- What is no longer than the room fits. -/
theorem fits_of_room? {sink : ByteSink} {room : Nat} (hroom : sink.room? = some room)
    {bytes : List UInt8} (h : bytes.length ≤ room) : sink.Fits bytes := by
  intro other hother
  obtain rfl : room = other := by simpa [hroom] using hother
  exact h

theorem fits_of_limit_eq_none {sink : ByteSink} (h : sink.limit = none) (bytes : List UInt8) :
    sink.Fits bytes := by
  simp [Fits, room?, h]

theorem room?_extend_of_room? {sink : ByteSink} {room : Nat} (hroom : sink.room? = some room)
    (bytes : List UInt8) : (sink.extend bytes).room? = some (room - bytes.length) := by
  rw [room?_extend, hroom, Option.map_some]

/-- What fits in two parts fits as a whole. -/
theorem fits_append {first second : List UInt8} {sink : ByteSink} :
    sink.Fits (first ++ second) ↔ sink.Fits first ∧ (sink.extend first).Fits second := by
  simp only [Fits, room?_extend, List.length_append, Option.mem_def, Option.map_eq_some_iff]
  constructor
  · intro h
    refine ⟨?_, ?_⟩
    · intro room hroom
      have := h room hroom
      omega
    · rintro _ ⟨room, hroom, rfl⟩
      have := h room hroom
      omega
  · rintro ⟨hfirst, hsecond⟩ room hroom
    have hfirst := hfirst room hroom
    have hsecond := hsecond _ ⟨room, hroom, rfl⟩
    omega

/-! ## Writes -/

/-- What a write takes unless it fails. -/
theorem write_eq_ok {sink : ByteSink} (h : sink.room? = some 0 → sink.refusal = none)
    (bytes : List UInt8) :
    sink.write bytes =
      (.ok (bytes.take (sink.allowance?.getD bytes.length)).length,
        sink.extend (bytes.take (sink.allowance?.getD bytes.length))) := by
  unfold write
  split
  next f hroom hrefusal => simp [h hroom] at hrefusal
  next => cases sink.allowance? <;> simp [extend]

/-- Whatever a sink is like, it holds what a write took. -/
theorem eq_extend_of_write_eq_ok {sink left : ByteSink} {bytes : List UInt8} {taken : Nat}
    (h : sink.write bytes = (.ok taken, left)) : left = sink.extend (bytes.take taken) := by
  by_cases hfull : sink.room? = some 0 → sink.refusal = none
  · rw [write_eq_ok hfull] at h
    obtain ⟨rfl, rfl⟩ : _ = taken ∧ _ = left := by simpa using h
    congr 1
    rw [List.take_eq_take_iff]
    omega
  -- only a full sink with a refusal fails, and a write that fails takes nothing
  · obtain ⟨hroom, hrefusal⟩ := Classical.not_imp.mp hfull
    obtain ⟨f, hf⟩ := Option.ne_none_iff_exists'.mp hrefusal
    simp [write, hroom, hf] at h

/-- A write that fails takes nothing. -/
theorem eq_of_write_eq_error {sink left : ByteSink} {bytes : List UInt8} {f : Fault}
    (h : sink.write bytes = (.error f, left)) : left = sink := by
  unfold write at h
  split at h
  next => exact (Prod.mk.inj h).2.symm
  next => simp at h

/-- A sink that isn't full allows a write to take something, but no more than it has room for. -/
theorem exists_allowance {sink : ByteSink} (hstep : sink.step ≠ some 0)
    (hroom : sink.room? ≠ some 0) {length : Nat} (hlength : 0 < length) :
    ∃ allowance, sink.allowance?.getD length = allowance + 1 ∧
      ∀ room ∈ sink.room?, allowance < room := by
  refine ⟨sink.allowance?.getD length - 1, ?_⟩
  unfold allowance?
  cases hr : sink.room? with
  | none =>
    cases hs : sink.step with
    | none => simp; omega
    | some step =>
      have : step ≠ 0 := fun h => hstep (by rw [hs, h])
      simp
      omega
  | some room =>
    have hne : room ≠ 0 := fun h => hroom (by rw [hr, h])
    cases hs : sink.step with
    | none => simp; omega
    | some step =>
      have : step ≠ 0 := fun h => hstep (by rw [hs, h])
      simp
      omega

/-- A sink that isn't full takes some of the bytes at once, and goes on with the others. -/
theorem writeAll_step {sink : ByteSink} (hstep : sink.step ≠ some 0) (hroom : sink.room? ≠ some 0)
    {bytes : List UInt8} (hbytes : bytes ≠ []) :
    ∃ first rest, bytes = first ++ rest ∧ first ≠ [] ∧ sink.Fits first ∧
      sink.writeAll bytes = (sink.extend first).writeAll rest := by
  cases bytes with
  | nil => exact absurd rfl hbytes
  | cons b bs =>
    obtain ⟨allowance, hallowance, hle⟩ :=
      exists_allowance hstep hroom (List.length_pos_iff.mpr hbytes)
    have hwrite := write_eq_ok (fun h => absurd h hroom) (b :: bs)
    rw [hallowance, List.take_succ_cons, List.length_cons] at hwrite
    -- the bound of one write is at least one, so the first byte goes in with it
    refine ⟨b :: bs.take allowance, bs.drop allowance, by simp, by simp, ?_, ?_⟩
    · intro room hmem
      have := hle room hmem
      simp only [List.length_cons, List.length_take]
      omega
    · have hdrop : bs.drop (bs.take allowance).length = bs.drop allowance := by
        rw [List.length_take, List.drop_eq_drop_iff]
        omega
      rw [writeAll, hwrite]
      simp only [hdrop]

/-- The full sink fails, or takes nothing, which is a failure as well. -/
theorem writeAll_full {sink : ByteSink} (hroom : sink.room? = some 0) {bytes : List UInt8}
    (hbytes : bytes ≠ []) : sink.writeAll bytes = (.error sink.fault, sink) := by
  cases bytes with
  | nil => exact absurd rfl hbytes
  | cons b bs =>
    have hallowance : sink.allowance? = some 0 := by
      unfold allowance?
      cases sink.step <;> simp [hroom]
    rw [writeAll, write, hroom, hallowance]
    obtain ⟨limit, step, refusal, written⟩ := sink
    cases refusal <;> simp [fault]

/-- What there is room for goes in, in as many writes as it takes. -/
theorem writeAll_eq_ok {sink : ByteSink} (hstep : sink.step ≠ some 0) {bytes : List UInt8}
    (h : sink.Fits bytes) : sink.writeAll bytes = (.ok (), sink.extend bytes) := by
  induction hn : bytes.length using Nat.strongRecOn generalizing bytes sink with
  | _ n ih =>
    by_cases hbytes : bytes = []
    · subst hbytes
      rw [writeAll, extend_nil]
    -- what is left fits behind what the first write took, and it is shorter
    · have hroom : sink.room? ≠ some 0 := by
        intro hfull
        exact hbytes (List.eq_nil_of_length_eq_zero (Nat.le_zero.mp (h 0 hfull)))
      obtain ⟨first, rest, rfl, hfirst, -, hwrite⟩ := writeAll_step hstep hroom hbytes
      have hshorter : rest.length < n := by
        have := List.length_pos_iff.mpr hfirst
        rw [List.length_append] at hn
        omega
      have hstep' : (sink.extend first).step ≠ some 0 := hstep
      rw [hwrite, ih rest.length hshorter hstep' (fits_append.mp h).2 rfl, extend_extend]

/-- What there is no room for goes in as far as there is room. -/
theorem writeAll_eq_error {sink : ByteSink} (hstep : sink.step ≠ some 0) {room : Nat}
    (hroom : sink.room? = some room) {bytes : List UInt8} (h : room < bytes.length) :
    sink.writeAll bytes = (.error sink.fault, sink.extend (bytes.take room)) := by
  induction hn : bytes.length using Nat.strongRecOn generalizing bytes sink room with
  | _ n ih =>
    have hbytes : bytes ≠ [] := List.ne_nil_of_length_pos (Nat.zero_lt_of_lt h)
    by_cases hzero : room = 0
    · subst hzero
      rw [writeAll_full hroom hbytes, List.take_zero, extend_nil]
    -- the first write takes no more than there is room for, and leaves the rest of the room
    · obtain ⟨first, rest, rfl, hfirst, hfits, hwrite⟩ :=
        writeAll_step hstep (by simpa [hroom]) hbytes
      have hle : first.length ≤ room := hfits room hroom
      have hpos := List.length_pos_iff.mpr hfirst
      rw [List.length_append] at h hn
      have hleft := room?_extend_of_room? hroom first
      have hstep' : (sink.extend first).step ≠ some 0 := hstep
      rw [hwrite, ih rest.length (by omega) hstep' hleft (by omega) rfl, extend_extend,
        fault_extend, List.take_append, List.take_of_length_le hle]

/-- Whatever a sink is like, if it takes all bytes then it holds them. -/
theorem eq_extend_of_writeAll_eq_ok {sink left : ByteSink} {bytes : List UInt8}
    (h : sink.writeAll bytes = (.ok (), left)) : left = sink.extend bytes := by
  induction bytes, sink using writeAll.induct with
  | case1 sink =>
    rw [writeAll] at h
    rw [extend_nil]
    exact (Prod.mk.inj h).2.symm
  | case2 sink b rest f next hwrite => simp [writeAll, hwrite] at h
  | case3 sink b rest next hwrite => simp [writeAll, hwrite] at h
  | case4 sink b rest taken next hwrite ih =>
    rw [writeAll, hwrite] at h
    rw [ih h, eq_extend_of_write_eq_ok hwrite, extend_extend]
    simp

/-- Whatever a sink is like, if it doesn't take all bytes then it holds those in front of some. -/
theorem exists_of_writeAll_eq_error {sink left : ByteSink} {bytes : List UInt8} {f : Fault}
    (h : sink.writeAll bytes = (.error f, left)) :
    ∃ taken rest, bytes = taken ++ rest ∧ rest ≠ [] ∧ left = sink.extend taken := by
  induction bytes, sink using writeAll.induct with
  | case1 sink => simp [writeAll] at h
  | case2 sink b rest g next hwrite =>
    rw [writeAll, hwrite] at h
    refine ⟨[], b :: rest, rfl, List.cons_ne_nil b rest, ?_⟩
    rw [extend_nil, ← eq_of_write_eq_error hwrite]
    exact (Prod.mk.inj h).2.symm
  | case3 sink b rest next hwrite =>
    rw [writeAll, hwrite] at h
    refine ⟨[], b :: rest, rfl, List.cons_ne_nil b rest, ?_⟩
    rw [← (Prod.mk.inj h).2, eq_extend_of_write_eq_ok hwrite, List.take_zero]
  -- what the first write took is in front of what the others take
  | case4 sink b rest count next hwrite ih =>
    rw [writeAll, hwrite] at h
    obtain ⟨taken, later, hrest, hlater, rfl⟩ := ih h
    refine ⟨(b :: rest).take (count + 1) ++ taken, later, ?_, hlater, ?_⟩
    · rw [List.append_assoc, ← hrest, List.take_succ_cons, List.cons_append, List.take_append_drop]
    · rw [eq_extend_of_write_eq_ok hwrite, extend_extend]

/-! ## Lines -/

/-- The bytes of a line and the line feed behind it. -/
def lineBytes (line : List Char) : List UInt8 :=
  Utf8.encode (line ++ ['\n'])

theorem length_lineBytes (line : List Char) :
    (lineBytes line).length = (Utf8.encode line).length + 1 := by
  rw [lineBytes, Utf8.encode_append, List.length_append]
  rfl

/-- A line and its line feed are written apart. -/
theorem putLine_eq (line : List Char) (sink : ByteSink) :
    putLine line sink =
      match sink.writeAll (Utf8.encode line) with
      | (.error f, sink) => (.error f, sink)
      | (.ok (), sink) => sink.writeAll (Utf8.encode ['\n']) := rfl

/-- A line goes in if there is room for it and its line feed. -/
theorem putLine_eq_ok {sink : ByteSink} (hstep : sink.step ≠ some 0) {line : List Char}
    (h : sink.Fits (lineBytes line)) :
    putLine line sink = (.ok (), sink.extend (lineBytes line)) := by
  rw [lineBytes, Utf8.encode_append, fits_append] at h
  rw [putLine_eq, writeAll_eq_ok hstep h.1]
  simp only
  rw [writeAll_eq_ok (by exact hstep) h.2, extend_extend, lineBytes, Utf8.encode_append]

/-- A line that there is no room for goes in as far as there is room. -/
theorem putLine_eq_error {sink : ByteSink} (hstep : sink.step ≠ some 0) {room : Nat}
    (hroom : sink.room? = some room) {line : List Char} (h : room < (lineBytes line).length) :
    putLine line sink = (.error sink.fault, sink.extend ((lineBytes line).take room)) := by
  rw [lineBytes, Utf8.encode_append] at h ⊢
  by_cases hline : room < (Utf8.encode line).length
  · rw [putLine_eq, writeAll_eq_error hstep hroom hline]
    simp only
    rw [List.take_append_of_le_length (Nat.le_of_lt hline)]
  -- only the line feed has no room
  · have hfits : sink.Fits (Utf8.encode line) := fits_of_room? hroom (by omega)
    have hleft := room?_extend_of_room? hroom (Utf8.encode line)
    rw [putLine_eq, writeAll_eq_ok hstep hfits]
    simp only
    rw [writeAll_eq_error (by exact hstep) hleft (by simp at h ⊢; omega), extend_extend,
      fault_extend, List.take_append, List.take_of_length_le (by omega : _ ≤ room)]

/-- Whatever a sink is like, if it takes a line then it holds the line and its line feed. -/
theorem eq_extend_of_putLine_eq_ok {sink left : ByteSink} {line : List Char}
    (h : putLine line sink = (.ok (), left)) : left = sink.extend (lineBytes line) := by
  rw [putLine_eq] at h
  split at h
  next f next hwrite => simp at h
  next next hwrite =>
    rw [eq_extend_of_writeAll_eq_ok h, eq_extend_of_writeAll_eq_ok hwrite, extend_extend,
      lineBytes, Utf8.encode_append]

/-- Whatever a sink is like, if it refuses a line then it holds a part of the line and its line
feed, but not all. -/
theorem exists_of_putLine_eq_error {sink left : ByteSink} {line : List Char} {f : Fault}
    (h : putLine line sink = (.error f, left)) :
    ∃ taken rest, lineBytes line = taken ++ rest ∧ rest ≠ [] ∧ left = sink.extend taken := by
  rw [lineBytes, Utf8.encode_append]
  rw [putLine_eq] at h
  split at h
  next g next hwrite =>
    obtain rfl := (Prod.mk.inj h).2
    obtain ⟨taken, rest, hline, -, rfl⟩ := exists_of_writeAll_eq_error hwrite
    exact ⟨taken, rest ++ Utf8.encode ['\n'], by rw [hline, List.append_assoc], by simp, rfl⟩
  next next hwrite =>
    obtain ⟨taken, rest, hlineFeed, hrest, rfl⟩ := exists_of_writeAll_eq_error h
    refine ⟨Utf8.encode line ++ taken, rest, by rw [hlineFeed, List.append_assoc], hrest, ?_⟩
    rw [eq_extend_of_writeAll_eq_ok hwrite, extend_extend]

end TextEmbed.ByteSink
