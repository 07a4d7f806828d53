import TextEmbed.Fault

/-!
# Sources

A source delivers its bytes fill by fill, and a fill can fail. `Source.readLine` reads one line
across fills: a line ends with a line feed, with a carriage return and a line feed, or with a lone
carriage return, and its terminator belongs to it.

An interrupted fill is tried again, except when the fill only serves to look for the line feed
behind a carriage return.
-/

namespace TextEmbed

/-- What one fill of a buffer brings. -/
inductive Fill where
  /-- Bytes to read; none at all mean that the source is at its end, for this once. -/
  | bytes (bytes : List UInt8)
  /-- The fill fails, for this once. -/
  | fault (f : Fault)
  deriving DecidableEq, Repr

/-- The fills that a source still has to give, the first of them partly read. After the last one it
is at its end for good. -/
abbrev Source := List Fill

namespace Source

/-- The line feed. -/
def lineFeed : UInt8 := 0x0A

/-- The carriage return. -/
def carriageReturn : UInt8 := 0x0D

/-- Bytes that end a line. -/
def isTerminator (b : UInt8) : Bool :=
  b == lineFeed || b == carriageReturn

/-- A source whose current fill has the bytes `unread` left. -/
def resume (unread : List UInt8) (rest : Source) : Source :=
  match unread with
  | [] => rest
  | b :: bs => .bytes (b :: bs) :: rest

/-- A source that gives all of `data` in one fill. -/
def ofData (data : List UInt8) : Source :=
  resume data []

/-- The consecutive parts of a byte string, each but the last `capacity` bytes long. There are none
if that is zero. -/
def chunks (capacity : Nat) (data : List UInt8) : List (List UInt8) :=
  match capacity, data with
  | 0, _ | _, [] => []
  | more + 1, b :: rest => (b :: rest.take more) :: chunks (more + 1) (rest.drop more)
termination_by data.length
decreasing_by simp only [List.length_drop, List.length_cons]; omega

/-- The parts of a byte string make up the byte string. -/
theorem flatten_chunks {capacity : Nat} (h : 0 < capacity) (data : List UInt8) :
    (chunks capacity data).flatten = data := by
  fun_induction chunks capacity data with
  | case1 => omega
  | case2 => rfl
  | case3 more b rest ih => simp [ih h]

/-- A source that gives `data` through a buffer of `capacity` bytes. A buffer without room gives
nothing. -/
def ofDataBy (capacity : Nat) (data : List UInt8) : Source :=
  (chunks capacity data).map Fill.bytes

/-- Reads a line feed if it comes next, and tells whether it did. -/
def takeLineFeed : Source → Except Fault Bool × Source
  | [] => (.ok false, [])
  | .fault f :: rest => (.error f, rest)
  | .bytes [] :: rest => (.ok false, rest)
  | .bytes (b :: bs) :: rest =>
    if b = lineFeed then (.ok true, resume bs rest) else (.ok false, .bytes (b :: bs) :: rest)

/-- Reads up to and including the next terminator, or to the end. What was read is lost if a fill
fails. -/
def readBytes : Source → Except Fault (List UInt8) × Source
  | [] => (.ok [], [])
  | .fault f :: rest => if f.kind = .interrupted then readBytes rest else (.error f, rest)
  | .bytes [] :: rest => (.ok [], rest)
  | .bytes (b :: bs) :: rest =>
    let text := (b :: bs).takeWhile (!isTerminator ·)
    match (b :: bs).dropWhile (!isTerminator ·) with
    | [] =>
      let later := readBytes rest
      (later.1.map (text ++ ·), later.2)
    | terminator :: unread =>
      if terminator = carriageReturn then
        let ahead := takeLineFeed (resume unread rest)
        (ahead.1.map fun found => text ++ terminator :: (if found then [lineFeed] else []), ahead.2)
      else (.ok (text ++ [terminator]), resume unread rest)

/-- Reads the next line with its terminator, `none` at the end. A line must be well-formed UTF-8. -/
def readLine (source : Source) : Except Fault (Option (List Char)) × Source :=
  match readBytes source with
  | (.error f, left) => (.error f, left)
  | (.ok [], left) => (.ok none, left)
  | (.ok line, left) =>
    match Utf8.decode line with
    | .ok text => (.ok (some text), left)
    | .error e => (.error (.illFormed e), left)

/-- The bytes that nobody has read yet. -/
def unread : Source → List UInt8
  | [] => []
  | .bytes bytes :: rest => bytes ++ unread rest
  | .fault _ :: rest => unread rest

/-- How much a source still has to give: its bytes and its fills. -/
def size : Source → Nat
  | [] => 0
  | .bytes bytes :: rest => bytes.length + 1 + size rest
  | .fault _ :: rest => 1 + size rest

theorem size_resume_le (unread : List UInt8) (rest : Source) :
    size (resume unread rest) ≤ unread.length + 1 + size rest := by
  cases unread <;> simp [resume, size]

theorem size_takeLineFeed_le (source : Source) : size (takeLineFeed source).2 ≤ size source := by
  match source with
  | [] => simp [takeLineFeed]
  | .fault f :: rest => simp [takeLineFeed, size]
  | .bytes [] :: rest => simp [takeLineFeed, size]
  | .bytes (b :: bs) :: rest =>
    rw [takeLineFeed]
    split
    · have := size_resume_le bs rest
      simp only [size, List.length_cons]
      omega
    · exact Nat.le_refl _

/-- Reading bytes uses up a part of every source that isn't at its end for good. -/
theorem size_readBytes_lt {source : Source} (h : source ≠ []) :
    size (readBytes source).2 < size source := by
  induction source with
  | nil => exact absurd rfl h
  | cons fill rest ih =>
    have later : size (readBytes rest).2 ≤ size rest := by
      cases rest with
      | nil => simp [readBytes]
      | cons next rest => exact Nat.le_of_lt (ih (by simp))
    match fill with
    | .fault f =>
      rw [readBytes]
      split <;> simp only [size] <;> omega
    | .bytes [] => simp [readBytes, size]
    | .bytes (b :: bs) =>
      rw [readBytes]
      have hlength := congrArg List.length
        (List.takeWhile_append_dropWhile (p := (!isTerminator ·)) (l := b :: bs))
      rw [List.length_append] at hlength
      split
      · simp only [size]
        omega
      · rename_i terminator unread hdrop
        rw [hdrop, List.length_cons] at hlength
        have hresume := size_resume_le unread rest
        split
        · have hahead := size_takeLineFeed_le (resume unread rest)
          simp only [size]
          omega
        · simp only [size]
          omega

/-- Decoding a line leaves the source alone. -/
theorem snd_readLine (source : Source) : (readLine source).2 = (readBytes source).2 := by
  unfold readLine
  split
  · simp_all
  · simp_all
  · split <;> simp_all

/-- A call that returns a line makes progress. -/
theorem size_lt_of_readLine {source left : Source} {line : List Char}
    (h : readLine source = (.ok (some line), left)) : size left < size source := by
  have hne : source ≠ [] := by
    rintro rfl
    simp [readLine, readBytes] at h
  have hleft : left = (readBytes source).2 := by
    rw [← snd_readLine, h]
  rw [hleft]
  exact size_readBytes_lt hne

end Source

end TextEmbed
