import TextEmbed.Proofs.Embedding.Blocks
import TextEmbed.Proofs.Embedding.Errors
import TextEmbed.Proofs.Embedding.Meaning

/-!
# What feeds put out

Where nothing is refused, a feed puts out the header of its declaration first, and one whole
declaration if nothing fails. This is so for an echo as well: whatever it reads of the output, it
puts out fragments. So the output of a run that succeeds is one declaration per feed, in order, and
the declaration of a source of its own has the lines of that source.

## Main definitions

* `Feed.Declares`: the declarations that can come of a feed;
* `Feed.PutsOut`: what a feed puts out, as far as it gets.

## Main results

* `BlockWriter.takes_embedFeed`: one feed into a writer that takes everything;
* `BlockWriter.takes_embedEach`: feeds one after the other;
* `Command.exists_output_embedInBlocks`: what is in the device in the end.
-/

namespace TextEmbed

/-- The fragments of embedded lines, as bytes. -/
def Declaration.fragmentBytes (body : List (List Char)) : List UInt8 :=
  body.flatMap fun line => ByteSink.lineBytes (fragmentLine line)

/-- A declaration as bytes is its header, its fragments and its end. -/
theorem Declaration.encode_render (pointerType : List Char) (declaration : Declaration) :
    Utf8.encode (declaration.render pointerType) =
      ByteSink.lineBytes (header pointerType declaration.identifier) ++
        (fragmentBytes declaration.body ++ ByteSink.lineBytes closing) := by
  have hlines : ∀ lines : List (List Char),
      Utf8.encode (lines.flatMap (· ++ ['\n'])) = lines.flatMap ByteSink.lineBytes := by
    intro lines
    rw [Utf8.encode, List.flatMap_assoc]
    rfl
  rw [render, hlines, Declaration.lines, List.flatMap_cons, List.flatMap_append, List.flatMap_map,
    List.flatMap_singleton]
  rfl

/-- The header of the declaration of a feed. -/
def Feed.header (settings : Settings) (feed : Feed) : List Char :=
  Declaration.header settings.pointerType (Identifier.ofName settings.lead feed.name)

/-- `declaration` can come of a feed. Of a source of its own, which is read to its end, it has what
the lines contribute; of an echo it can have anything. -/
inductive Feed.Declares (settings : Settings) : Feed → Declaration → Prop
  | given (input : Input) (h : (input.source.reading settings.stripComments).result = .ok ()) :
      Declares settings (.given input)
        { identifier := Identifier.ofName settings.lead input.name
          body := (input.source.reading settings.stripComments).kept.map Prod.fst }
  | echo (name : List Char) (body : List (List Char)) :
      Declares settings (.echo name) { identifier := Identifier.ofName settings.lead name, body }

/-- A feed that comes to `result` puts out `bytes`: the header at first, and one declaration if it
succeeds. -/
structure Feed.PutsOut (settings : Settings) (feed : Feed) (result : Except RunError Unit)
    (bytes : List UInt8) : Prop where
  header : ByteSink.lineBytes (feed.header settings) <+: bytes
  declared : result = .ok () → ∃ declaration, feed.Declares settings declaration ∧
    bytes = Utf8.encode (declaration.render settings.pointerType)

namespace BlockWriter

variable {settings : Settings} {writer : BlockWriter}

/-! ## Sources of their own -/

/-- What an input puts out are the lines of its transcript. -/
theorem takes_embedInput (settings : Settings) (h : writer.Unbounded) (input : Input) :
    ∃ bytes, writer.Takes bytes (embedInput settings input writer).sink ∧
      (Feed.given input).PutsOut settings (embedInput settings input writer).result bytes := by
  obtain ⟨next, hput, htakes⟩ := takes_putEach h (input.transcript settings).lines
  have hending : embedInput settings input writer = (input.transcript settings).ending next := by
    rw [embedInput_eq_play, Transcript.play, hput, Transcript.ending]
  -- nothing is refused, so the run ends as its transcript does
  rw [hending]
  refine ⟨_, htakes, ?_, ?_⟩
  · obtain ⟨rest, hlines⟩ := exists_lines_transcript_eq_cons settings input
    rw [hlines, bytesOf_cons]
    exact List.prefix_append _ _
  · intro hresult
    have hreading : (input.source.reading settings.stripComments).result = .ok () := by
      simp only [Transcript.ending, Input.transcript] at hresult
      cases hread : (input.source.reading settings.stripComments).result with
      | error f => simp [hread] at hresult
      | ok => rfl
    exact ⟨_, .given input hreading, bytesOf_transcript_of_reading hreading⟩

/-! ## Echoes -/

/-- Whatever a source has, its lines put out fragments. -/
theorem takes_of_embedLines (h : writer.Unbounded) {name : List Char} {fragments : Nat}
    {source left : Source} {result : Except RunError Nat} {next : BlockWriter}
    (hlines : embedLines settings name fragments source writer = (result, left, next)) :
    ∃ body, writer.Takes (Declaration.fragmentBytes body) next := by
  obtain ⟨last, hput, htakes⟩ :=
    takes_putEach h (source.reading settings.stripComments).fragments
  rw [embedLines_eq_putEach, hput] at hlines
  obtain rfl : last = next := (Prod.mk.inj (Prod.mk.inj hlines).2).2
  refine ⟨(source.reading settings.stripComments).kept.map Prod.fst, ?_⟩
  rw [bytesOf, Source.Reading.fragments, List.flatMap_map] at htakes
  rw [Declaration.fragmentBytes, List.flatMap_map]
  exact htakes

/-- Echoed rounds put out fragments. -/
theorem takes_of_embedEchoLines (h : writer.Unbounded) {name : List Char}
    {space read fragments : Nat} {left : Source} {result : Except RunError Nat} {next : BlockWriter}
    (hlines : embedEchoLines settings name space read fragments writer = (result, left, next)) :
    ∃ body, writer.Takes (Declaration.fragmentBytes body) next := by
  fun_induction embedEchoLines settings name space read fragments writer with
  -- there is no more space, or nothing new was delivered
  | case1 read fragments writer delivered hspace =>
    obtain rfl : writer = next := (Prod.mk.inj (Prod.mk.inj hlines).2).2
    exact ⟨[], takes_nil h⟩
  | case2 read fragments writer delivered hspace hread =>
    obtain rfl : writer = next := (Prod.mk.inj (Prod.mk.inj hlines).2).2
    exact ⟨[], takes_nil h⟩
  | case3 read fragments writer delivered hspace hread source e rest after hround =>
    obtain rfl : after = next := (Prod.mk.inj (Prod.mk.inj hlines).2).2
    exact takes_of_embedLines h hround
  -- the fragments of the rounds behind this one follow its own
  | case4 read fragments writer delivered hspace hread source later rest after hround ih =>
    obtain ⟨body, hbody⟩ := takes_of_embedLines h hround
    obtain ⟨others, hothers⟩ := ih hbody.unbounded hlines
    refine ⟨body ++ others, ?_⟩
    rw [Declaration.fragmentBytes, List.flatMap_append]
    exact hbody.append hothers

/-- A declaration whose body puts out fragments. -/
theorem takes_embedDeclaration (settings : Settings) (h : writer.Unbounded) (input : Input)
    {body : BlockWriter → Except RunError Nat × Source × BlockWriter}
    (hbody : ∀ opened result left next, opened.Unbounded → body opened = (result, left, next) →
      ∃ kept, opened.Takes (Declaration.fragmentBytes kept) next) :
    ∃ bytes, writer.Takes bytes (embedDeclaration settings input body writer).sink ∧
      ByteSink.lineBytes (Declaration.header settings.pointerType
        (Identifier.ofName settings.lead input.name)) <+: bytes ∧
      ((embedDeclaration settings input body writer).result = .ok () →
        ∃ kept, bytes = Utf8.encode (Declaration.render settings.pointerType
          { identifier := Identifier.ofName settings.lead input.name, body := kept })) := by
  obtain ⟨opened, hheader, htakes⟩ := takes_putLine h (Declaration.header settings.pointerType
    (Identifier.ofName settings.lead input.name))
  rcases hresult : body opened with ⟨result, left, written⟩
  obtain ⟨kept, hfragments⟩ := hbody opened result left written htakes.unbounded hresult
  -- the end of the declaration is only written if the body succeeds
  cases result with
  | error e =>
    simp only [embedDeclaration, hheader, hresult]
    exact ⟨_, htakes.append hfragments, List.prefix_append _ _, by simp⟩
  | ok fragments =>
    obtain ⟨closed, hclosing, hlast⟩ := takes_putLine hfragments.unbounded Declaration.closing
    simp only [embedDeclaration, hheader, hresult, hclosing]
    refine ⟨_, htakes.append (hfragments.append hlast), List.prefix_append _ _, fun _ => ?_⟩
    exact ⟨kept, by rw [Declaration.encode_render]⟩

/-- What an echo puts out. -/
theorem takes_embedEcho (settings : Settings) (h : writer.Unbounded) (name : List Char) :
    ∃ bytes, writer.Takes bytes (embedEcho settings name writer).sink ∧
      (Feed.echo name).PutsOut settings (embedEcho settings name writer).result bytes := by
  obtain ⟨bytes, htakes, hheader, hdeclared⟩ :=
    takes_embedDeclaration settings h { name, source := [] }
      fun _ _ _ _ hopened hlines => takes_of_embedEchoLines hopened hlines
  refine ⟨bytes, htakes, hheader, fun hresult => ?_⟩
  obtain ⟨kept, rfl⟩ := hdeclared hresult
  exact ⟨_, .echo name kept, rfl⟩

/-! ## Runs -/

/-- What one feed puts out. -/
theorem takes_embedFeed (settings : Settings) (h : writer.Unbounded) (feed : Feed) :
    ∃ bytes, writer.Takes bytes (embedFeed settings feed writer).sink ∧
      feed.PutsOut settings (embedFeed settings feed writer).result bytes := by
  cases feed with
  | given input => exact takes_embedInput settings h input
  | echo name => exact takes_embedEcho settings h name

/-- What feeds put out one after the other: the header of the first one at first, and one
declaration each if all of them succeed. -/
theorem takes_embedEach (settings : Settings) (h : writer.Unbounded) (written : Nat)
    (feeds : List Feed) :
    ∃ bytes, writer.Takes bytes (embedEach (embedFeed settings) written feeds writer).sink ∧
      (∀ first ∈ feeds.head?, ByteSink.lineBytes (first.header settings) <+: bytes) ∧
      ((embedEach (embedFeed settings) written feeds writer).result = .ok () →
        ∃ declarations, List.Forall₂ (Feed.Declares settings) feeds declarations ∧
          bytes = Utf8.encode
            (declarations.flatMap (Declaration.render settings.pointerType))) := by
  -- by induction on the feeds: the writer has taken what those in front put out
  induction feeds generalizing written writer with
  | nil => exact ⟨[], takes_nil h, by simp, fun _ => ⟨[], .nil, rfl⟩⟩
  | cons feed rest ih =>
    obtain ⟨bytes, htakes, hputs⟩ := takes_embedFeed settings h feed
    rw [embedEach]
    cases hresult : (embedFeed settings feed writer).result with
    | error e =>
      refine ⟨bytes, htakes, ?_, ?_⟩
      · rintro first ⟨⟩
        exact hputs.header
      · simp [hresult]
    | ok =>
      obtain ⟨others, hothers, -, hdeclared⟩ := ih htakes.unbounded (written + 1)
      refine ⟨bytes ++ others, htakes.append hothers, ?_, ?_⟩
      · rintro first ⟨⟩
        exact hputs.header.trans (List.prefix_append _ _)
      · intro hrest
        obtain ⟨declaration, hdeclaration, rfl⟩ := hputs.declared hresult
        obtain ⟨declarations, hdeclarations, rfl⟩ := hdeclared hrest
        refine ⟨declaration :: declarations, .cons hdeclaration hdeclarations, ?_⟩
        rw [List.flatMap_cons, Utf8.encode_append]

end BlockWriter

/-- Embedding in blocks succeeds only if embedding does. -/
theorem Command.result_embedFeeds_of_embedInBlocks {settings : Settings} {feeds : List Feed}
    {device : ByteSink} (h : (embedInBlocks settings feeds device).1 = .ok ()) :
    (embedFeeds settings feeds { device }).result = .ok () := by
  cases hfeeds : (embedFeeds settings feeds { device }).result with
  | error e => simp [embedInBlocks, hfeeds] at h
  | ok => rfl

/-- What is in a device in the end that takes everything. -/
theorem Command.exists_output_embedInBlocks (settings : Settings) (feeds : List Feed)
    {device : ByteSink} (hlimit : device.limit = none) (hstep : device.step ≠ some 0) :
    ∃ bytes, (embedInBlocks settings feeds device).2.sink.device.written.toList =
        device.written.toList ++ bytes ∧
      (∀ first ∈ feeds.head?, ByteSink.lineBytes (first.header settings) <+: bytes) ∧
      ((embedInBlocks settings feeds device).1 = .ok () →
        ∃ declarations, List.Forall₂ (Feed.Declares settings) feeds declarations ∧
          bytes = Utf8.encode
            (declarations.flatMap (Declaration.render settings.pointerType))) := by
  have hwriter : BlockWriter.Unbounded { device } := ⟨hlimit, hstep⟩
  obtain ⟨bytes, htakes, hheader, hdeclared⟩ :=
    BlockWriter.takes_embedEach settings hwriter 0 feeds
  refine ⟨bytes, ?_, hheader, ?_⟩
  · have hcontents := htakes.contents_eq
    simpa [embedInBlocks, embedFeeds, BlockWriter.flush_eq_ok htakes.unbounded,
      BlockWriter.contents] using hcontents
  · intro hresult
    exact hdeclared (result_embedFeeds_of_embedInBlocks hresult)

end TextEmbed
