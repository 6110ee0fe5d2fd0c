import DocComment.Session

/-!
# Editing a comment

A session over a runtime that agrees with itself (`Runtime.Agrees`) is the parser run on the source that the edits make:
its trees, highlights and answers are those of a parser that starts from nothing every time (`obeyAll_from_start`). So an
edit can be taken back, and edits of different stretches can be made in either order.
-/

namespace DocComment

/-- A runtime agrees with itself: parsing an edited source with a tree of the old one comes to a tree of the new one,
and all trees of a source show what parsing it from nothing shows. -/
structure Runtime.Agrees (r : Runtime) (isTreeOf : r.Tree → List UInt8 → Prop) : Prop where
  parse : ∀ source, isTreeOf (r.parse source) source
  reparse : ∀ {tree source start stop insertion edited}, isTreeOf tree source →
    Session.splice? source start stop insertion = some edited →
    isTreeOf (r.reparse tree ⟨start, stop, start + insertion.length⟩ edited) edited
  shown : ∀ {tree source}, isTreeOf tree source → r.shown tree = Node.ofSource? source

theorem Runtime.fromNothing_agrees :
    Runtime.fromNothing.Agrees fun tree source => tree = Node.ofSource? source where
  parse _ := rfl
  reparse _ _ := rfl
  shown same := same

namespace Session

/-! ## Splicing -/

theorem splice?_middle (front middle back insertion : List UInt8) :
    splice? (front ++ middle ++ back) front.length (front.length + middle.length) insertion =
      some (front ++ insertion ++ back) := by
  have before : (front ++ middle ++ back).take front.length = front := by simp
  have behind : (front ++ middle ++ back).drop (front.length + middle.length) = back := by
    rw [← List.length_append, List.drop_left]
  rw [splice?, if_pos (by simp), before, behind]

theorem splice?_behind (front back : List UInt8) (start stop : Nat) (insertion : List UInt8) :
    splice? (front ++ back) (front.length + start) (front.length + stop) insertion =
      (splice? back start stop insertion).map (front ++ ·) := by
  by_cases within : start ≤ stop ∧ stop ≤ back.length
  · rw [splice?, splice?, if_pos within, if_pos (by simp; omega)]
    simp [List.take_length_add_append, List.drop_length_add_append]
  · rw [splice?, splice?, if_neg within, if_neg (by simp; omega)]
    rfl

theorem exists_of_within {source : List UInt8} {start stop : Nat} (ordered : start ≤ stop)
    (within : stop ≤ source.length) :
    ∃ front middle back, source = front ++ middle ++ back ∧ front.length = start ∧ start + middle.length = stop ∧
      middle = (source.take stop).drop start := by
  refine ⟨source.take start, (source.take stop).drop start, source.drop stop, ?_, ?_, ?_, rfl⟩
  · have front : source.take start = (source.take stop).take start := by
      rw [List.take_take, Nat.min_eq_left ordered]
    rw [front, List.take_append_drop, List.take_append_drop]
  · simp only [List.length_take]
    omega
  · simp only [List.length_drop, List.length_take]
    omega

/-! ## The source behind commands -/

/-- The source after an edit. One that is refused leaves it. -/
def spliced (source : List UInt8) (start stop : Nat) (insertion : List UInt8) : List UInt8 :=
  (splice? source start stop insertion).getD source

/-- The source behind a command. -/
def Command.sourceBehind (source : List UInt8) : Command → List UInt8
  | .set new => new
  | .edit start stop insertion => spliced source start stop insertion
  | .tree | .highlights | .length => source

/-- What a parser answers on a source that starts from nothing at every command. -/
def Command.answerOn (source : List UInt8) : Command → Answer
  | .set new => .tree (Node.ofSource? new)
  | .edit start stop insertion =>
    match splice? source start stop insertion with
    | some edited => .tree (Node.ofSource? edited)
    | none => .badEdit
  | .tree => .tree (Node.ofSource? source)
  | .highlights => .highlights (DocComment.highlights? source)
  | .length => .length source.length

/-- Its answers to commands in order. -/
def answersOn (source : List UInt8) : List Command → List Answer
  | [] => []
  | c :: rest => c.answerOn source :: answersOn (c.sourceBehind source) rest

theorem spliced_middle (front middle back insertion : List UInt8) :
    spliced (front ++ middle ++ back) front.length (front.length + middle.length) insertion =
      front ++ insertion ++ back := by
  rw [spliced, splice?_middle]
  rfl

theorem spliced_behind (front back : List UInt8) (start stop : Nat) (insertion : List UInt8) :
    spliced (front ++ back) (front.length + start) (front.length + stop) insertion =
      front ++ spliced back start stop insertion := by
  rw [spliced, spliced, splice?_behind]
  cases splice? back start stop insertion <;> rfl

theorem spliced_back {source : List UInt8} {start stop : Nat} (ordered : start ≤ stop) (within : stop ≤ source.length)
    (insertion : List UInt8) :
    spliced (spliced source start stop insertion) start (start + insertion.length)
      ((source.take stop).drop start) = source := by
  obtain ⟨front, middle, back, rfl, rfl, rfl, replaced⟩ := exists_of_within ordered within
  rw [← replaced, spliced_middle, spliced_middle]

/-- An edit and one that starts no earlier than it ends can change places, if the latter is moved by what the former
adds and removes. -/
theorem spliced_comm {source : List UInt8} {start stop start' stop' : Nat} (ordered : start ≤ stop)
    (within : stop ≤ source.length) (apart : stop ≤ start') (ordered' : start' ≤ stop')
    (insertion insertion' : List UInt8) :
    spliced (spliced source start stop insertion) (start' + insertion.length - (stop - start))
        (stop' + insertion.length - (stop - start)) insertion' =
      spliced (spliced source start' stop' insertion') start stop insertion := by
  obtain ⟨front, middle, back, rfl, rfl, rfl, -⟩ := exists_of_within ordered within
  obtain ⟨a, rfl⟩ := Nat.exists_eq_add_of_le apart
  obtain ⟨b, rfl⟩ := Nat.exists_eq_add_of_le (Nat.le_trans apart ordered')
  have moved (n : Nat) :
      front.length + middle.length + n + insertion.length - (front.length + middle.length - front.length) =
        (front ++ insertion).length + n := by
    rw [List.length_append]
    omega
  have unmoved : front.length + middle.length = (front ++ middle).length := List.length_append.symm
  -- The second edit is one of what is behind the first stretch, whatever is before that.
  calc
    _ = spliced (front ++ insertion ++ back) ((front ++ insertion).length + a) ((front ++ insertion).length + b)
        insertion' := by rw [spliced_middle, moved, moved]
    _ = front ++ insertion ++ spliced back a b insertion' := spliced_behind ..
    _ = spliced (front ++ middle ++ spliced back a b insertion') front.length (front.length + middle.length)
        insertion := (spliced_middle ..).symm
    _ = _ := by rw [← spliced_behind (front ++ middle), ← unmoved]

/-! ## Staying in step -/

section
variable {r : Runtime} {isTreeOf : r.Tree → List UInt8 → Prop}

/-- The tree of a session is one of its source. -/
def InStep (isTreeOf : r.Tree → List UInt8 → Prop) (s : Session r) : Prop := isTreeOf s.tree s.source

theorem InStep.shown {s : Session r} (inStep : InStep isTreeOf s) (agrees : r.Agrees isTreeOf) :
    s.shown = Node.ofSource? s.source := agrees.shown inStep

theorem InStep.highlights {s : Session r} (inStep : InStep isTreeOf s) (agrees : r.Agrees isTreeOf) :
    s.highlights? = DocComment.highlights? s.source := by
  rw [Session.highlights?, inStep.shown agrees]
  rfl

theorem inStep_on (agrees : r.Agrees isTreeOf) (source : List UInt8) : InStep isTreeOf (on source : Session r) :=
  agrees.parse source

/-- A command keeps the tree in step, and the source alone tells what it does. -/
theorem obey_inStep (agrees : r.Agrees isTreeOf) {s : Session r} (inStep : InStep isTreeOf s) (c : Command) :
    (s.obey c).1.source = c.sourceBehind s.source ∧ (s.obey c).2 = c.answerOn s.source ∧ InStep isTreeOf (s.obey c).1 := by
  cases c with
  | set source =>
    have fresh := inStep_on agrees source
    refine ⟨rfl, ?_, fresh⟩
    exact congrArg Answer.tree (fresh.shown agrees)
  | edit start stop insertion =>
    cases edited : splice? s.source start stop insertion with
    | none =>
      have refused : s.edit? start stop insertion = none := by rw [edit?, edited]; rfl
      simp only [obey, refused, Command.sourceBehind, spliced, Command.answerOn, edited]
      exact ⟨rfl, trivial, inStep⟩
    | some source =>
      let behind : Session r := ⟨source, r.reparse s.tree ⟨start, stop, start + insertion.length⟩ source⟩
      have taken : s.edit? start stop insertion = some behind := by rw [edit?, edited]; rfl
      have kept : InStep isTreeOf behind := agrees.reparse inStep edited
      simp only [obey, taken, Command.sourceBehind, spliced, Command.answerOn, edited]
      exact ⟨rfl, congrArg Answer.tree (kept.shown agrees), kept⟩
  | tree => exact ⟨rfl, congrArg Answer.tree (inStep.shown agrees), inStep⟩
  | highlights => exact ⟨rfl, congrArg Answer.highlights (inStep.highlights agrees), inStep⟩
  | length => exact ⟨rfl, rfl, inStep⟩

theorem obeyAll_inStep (agrees : r.Agrees isTreeOf) {s : Session r} (inStep : InStep isTreeOf s)
    (commands : List Command) :
    (s.obeyAll commands).1.source = commands.foldl Command.sourceBehind s.source ∧
      (s.obeyAll commands).2 = answersOn s.source commands ∧ InStep isTreeOf (s.obeyAll commands).1 := by
  -- The invariant is that the tree is one of the source; the commands then go on from both.
  induction commands generalizing s with
  | nil => exact ⟨rfl, rfl, inStep⟩
  | cons c rest ih =>
    obtain ⟨source, answer, behind⟩ := obey_inStep agrees inStep c
    obtain ⟨sources, answers, last⟩ := ih behind
    rw [source] at sources answers
    refine ⟨sources, ?_, last⟩
    rw [obeyAll, answersOn, ← answer, ← answers]

/-- Two sessions that cannot be told apart, now or by anything asked later. -/
structure Alike (s t : Session r) : Prop where
  source : s.source = t.source
  shown : s.shown = t.shown
  later : ∀ commands, (s.obeyAll commands).2 = (t.obeyAll commands).2

theorem alike_of_source (agrees : r.Agrees isTreeOf) {s t : Session r} (left : InStep isTreeOf s)
    (right : InStep isTreeOf t) (same : s.source = t.source) : Alike s t where
  source := same
  shown := by rw [left.shown agrees, right.shown agrees, same]
  later commands := by
    obtain ⟨-, answers, -⟩ := obeyAll_inStep agrees left commands
    obtain ⟨-, answers', -⟩ := obeyAll_inStep agrees right commands
    rw [answers, answers', same]

/-! ## Sessions from the start -/

/-- A session that is the parser run on the source that some commands make. -/
structure IsParserOn (current : List UInt8) (s : Session r) : Prop where
  source : s.source = current
  shown : s.shown = Node.ofSource? current
  highlights : s.highlights? = DocComment.highlights? current

/-- How edits change a session. -/
structure EditsCleanly (s : Session r) : Prop where
  /-- An edit of a stretch that is not there is refused and changes nothing. -/
  refused : ∀ start stop insertion, ¬ (start ≤ stop ∧ stop ≤ s.source.length) →
    s.obey (.edit start stop insertion) = (s, .badEdit)
  /-- An edit is undone by the one that puts the replaced bytes back. -/
  undone : ∀ start stop insertion, start ≤ stop → stop ≤ s.source.length →
    Alike (s.obeyAll [.edit start stop insertion,
      .edit start (start + insertion.length) ((s.source.take stop).drop start)]).1 s
  /-- Edits of different stretches change places, with the right one moved by what the left one adds and removes. -/
  reordered : ∀ start stop insertion start' stop' insertion', start ≤ stop → stop ≤ s.source.length →
    stop ≤ start' → start' ≤ stop' →
    Alike
      (s.obeyAll [.edit start stop insertion, .edit (start' + insertion.length - (stop - start))
        (stop' + insertion.length - (stop - start)) insertion']).1
      (s.obeyAll [.edit start' stop' insertion', .edit start stop insertion]).1

theorem InStep.editsCleanly (agrees : r.Agrees isTreeOf) {s : Session r} (inStep : InStep isTreeOf s) :
    EditsCleanly s where
  refused start stop insertion without := by
    simp [obey, edit?, splice?, without]
  undone start stop insertion ordered within := by
    obtain ⟨source, -, kept⟩ := obeyAll_inStep agrees inStep [.edit start stop insertion,
      .edit start (start + insertion.length) ((s.source.take stop).drop start)]
    apply alike_of_source agrees kept inStep
    rw [source]
    exact spliced_back ordered within insertion
  reordered start stop insertion start' stop' insertion' ordered within apart ordered' := by
    obtain ⟨left, -, kept⟩ := obeyAll_inStep agrees inStep [.edit start stop insertion,
      .edit (start' + insertion.length - (stop - start)) (stop' + insertion.length - (stop - start)) insertion']
    obtain ⟨right, -, kept'⟩ := obeyAll_inStep agrees inStep [.edit start' stop' insertion', .edit start stop insertion]
    apply alike_of_source agrees kept kept'
    rw [left, right]
    exact spliced_comm ordered within apart ordered' insertion insertion'

/-- A session is the parser run on the source that its commands make, and so are its answers to them. -/
theorem obeyAll_from_start (agrees : r.Agrees isTreeOf) (commands : List Command) :
    (start.obeyAll commands : Session r × List Answer).2 = answersOn [] commands ∧
    IsParserOn (commands.foldl Command.sourceBehind []) (start.obeyAll commands : Session r × List Answer).1 ∧
    EditsCleanly (start.obeyAll commands : Session r × List Answer).1 := by
  obtain ⟨source, answers, kept⟩ := obeyAll_inStep agrees (inStep_on agrees []) commands
  refine ⟨answers, ⟨source, ?_, ?_⟩, kept.editsCleanly agrees⟩
  · exact (kept.shown agrees).trans (congrArg _ source)
  · exact (kept.highlights agrees).trans (congrArg _ source)

end

/-- A valid comment with half of a character cut off, which stays valid; an edit of no stretch; and the half put back. -/
theorem obeyAll_from_start_half :
    let whole := encode "/** @param x é b */"
    let half := encode "/** @param x c" ++ [0xa9] ++ encode " b */"
    let reached : Session .fromNothing × List Answer := start.obeyAll
      [.set whole, .edit 13 14 (encode "c"), .tree, .highlights, .edit 21 20 [], .length, .edit 13 14 [0xc3]]
    Runtime.fromNothing.Agrees (fun tree source => tree = Node.ofSource? source) ∧
    (∃ tree cut captures, Node.ofSource? whole = some tree ∧ Node.ofSource? half = some cut ∧
      DocComment.highlights? half = some captures ∧
      cut.expression = "(document (tag (tag_name) (identifier) (description)))" ∧
      (captures.map fun c => (c.1.name, c.2)) = [("keyword", encode "@param"), ("variable.parameter", encode "x"),
        ("comment", encode "c" ++ [0xa9] ++ encode " b *")] ∧
      reached.2 = [.tree (some tree), .tree (some cut), .tree (some cut), .highlights (some captures), .badEdit,
        .length 20, .tree (some tree)]) ∧
    IsParserOn whole reached.1 ∧ EditsCleanly reached.1 := by
  intro whole half reached
  obtain ⟨answers, parser, edits⟩ := obeyAll_from_start Runtime.fromNothing_agrees
    [.set whole, .edit 13 14 (encode "c"), .tree, .highlights, .edit 21 20 [], .length, .edit 13 14 [0xc3]]
  have taken : splice? whole 13 14 (encode "c") = some half := by decide +kernel
  have refused : splice? half 21 20 [] = none := by decide +kernel
  have back : splice? half 13 14 [0xc3] = some whole := by decide +kernel
  have length : half.length = 20 := by decide +kernel
  obtain ⟨tree, isTree⟩ : ∃ tree, Node.ofSource? whole = some tree :=
    Option.isSome_iff_exists.mp (by decide +kernel)
  have shown : (Node.ofSource? half).map Node.expression =
      some "(document (tag (tag_name) (identifier) (description)))" := by decide +kernel
  obtain ⟨cut, isCut, expression⟩ := Option.map_eq_some_iff.mp shown
  have lit : (DocComment.highlights? half).map (fun captures => captures.map fun c => (c.1.name, c.2)) =
      some [("keyword", encode "@param"), ("variable.parameter", encode "x"),
        ("comment", encode "c" ++ [0xa9] ++ encode " b *")] := by decide +kernel
  obtain ⟨captures, isLit, names⟩ := Option.map_eq_some_iff.mp lit
  simp only [answersOn, Command.answerOn, List.foldl, Command.sourceBehind, spliced, taken, refused, back, length, isTree,
    isCut, isLit, Option.getD_some, Option.getD_none] at answers parser
  exact ⟨Runtime.fromNothing_agrees, ⟨tree, cut, captures, isTree, isCut, isLit, expression, names, answers⟩, parser,
    edits⟩

end Session

end DocComment
