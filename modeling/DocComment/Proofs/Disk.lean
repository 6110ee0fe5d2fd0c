import DocComment.Build.Disk

/-!
# Disks that change

A path leads where it led before as long as the directories on it are kept (`followPath_of_kept`). Writing a file keeps
all directories, and making directories keeps everything and adds directories only where there was nothing
(`grows_makePath`). So what was written is read back (`read_of_write`), and it is not lost when something is
written elsewhere (`read_of_write_apart`).
-/

namespace DocComment

/-! ## Names of paths -/

namespace Text

theorem parts_ne_nil (mark : Char) (text : List Char) : parts mark text ≠ [] := by
  cases text with
  | nil => simp [parts]
  | cons c rest =>
    rw [parts]
    split
    · simp
    · split <;> simp

/-- A mark stands between the parts before it and those behind it. -/
theorem parts_append (mark : Char) (front back : List Char) :
    parts mark (front ++ mark :: back) = parts mark front ++ parts mark back := by
  induction front with
  | nil =>
    obtain ⟨part, more, split⟩ := List.exists_cons_of_ne_nil (parts_ne_nil mark back)
    simp [parts, split]
  | cons c front ih =>
    obtain ⟨part, more, split⟩ := List.exists_cons_of_ne_nil (parts_ne_nil mark front)
    rw [List.cons_append, parts, parts, ih, split, List.cons_append]
    by_cases isMark : c = mark <;> simp [isMark]

theorem parts_of_not_mem {mark : Char} {text : List Char} (absent : mark ∉ text) : parts mark text = [text] := by
  induction text with
  | nil => rfl
  | cons c rest ih =>
    rw [List.mem_cons, not_or] at absent
    obtain ⟨other, absent⟩ := absent
    simp [parts, ih absent, Ne.symm other]

end Text

namespace Path

/-- What comes before a name in a path depends on the rest of the path alone. -/
theorem exists_join (path : String) : ∃ front, ∀ name, join path name = front ++ name := by
  by_cases ends : (path.toList.isEmpty || path.toList.getLast? == some '/') = true
  · exact ⟨path, fun name => if_pos ends⟩
  · exact ⟨path ++ "/", fun name => if_neg ends⟩

/-- A name that leads somewhere else: it has no slash, and is neither empty nor the name of the directory itself. -/
def IsName (name : String) : Prop := '/' ∉ name.toList ∧ name ≠ "" ∧ name ≠ "."

private theorem names_eq (path : String) :
    names path = (((Text.parts '/' path.toList).map String.ofList).filter fun n => n != "" && n != ".").reverse ++
      if path.toList.head? == some '/' then ["/"] else [] := by
  rw [names]
  split <;> simp

/-- The names of a path with a name behind it. -/
theorem names_join {name : String} (isName : IsName name) (path : String) :
    names (join path name) = name :: names path := by
  obtain ⟨noSlash, notEmpty, notDot⟩ := isName
  have alone : ((Text.parts '/' name.toList).map String.ofList).filter (fun n => n != "" && n != ".") = [name] := by
    simp [Text.parts_of_not_mem noSlash, notEmpty, notDot]
  have behind {front : List Char} {whole : String} (split : whole.toList = front ++ '/' :: name.toList) :
      names whole = name :: ((((Text.parts '/' front).map String.ofList).filter fun n => n != "" && n != ".").reverse ++
        if (front ++ ['/']).head? == some '/' then ["/"] else []) := by
    have head : whole.toList.head? = (front ++ ['/']).head? := by
      rw [split]
      cases front <;> rfl
    rw [names_eq, head, split, Text.parts_append, List.map_append, List.filter_append, alone]
    simp
  rw [join]
  cases text : path.toList with
  | nil =>
    obtain rfl : path = "" := String.toList_eq_nil_iff.mp text
    have noRoot : ¬ (name.toList.head? == some '/') = true := by
      intro head
      exact noSlash (List.mem_of_mem_head? (beq_iff_eq.mp head))
    have whole : ("" ++ name).toList = name.toList := by simp
    rw [List.isEmpty_nil, Bool.true_or, if_pos rfl, names_eq, whole, alone, if_neg noRoot]
    rfl
  | cons first rest =>
    by_cases ends : (first :: rest).getLast? = some '/'
    · obtain ⟨front, split⟩ := List.getLast?_eq_some_iff.mp ends
      have whole : (path ++ name).toList = front ++ '/' :: name.toList := by simp [text, split]
      rw [if_pos (by simp [ends]), behind whole, names_eq path, text, split, Text.parts_append]
      simp [Text.parts]
    · have whole : (path ++ "/" ++ name).toList = (first :: rest) ++ '/' :: name.toList := by simp [text]
      rw [if_neg (by simpa using ends), behind whole, names_eq path, text]
      rfl

end Path

namespace Disk

variable {d d' : Disk} {path name : String} {names : List String} {here : Location}

/-! ## What is at a location after something was put there or elsewhere -/

@[simp] theorem put_self (d : Disk) (here : Location) (e : DiskEntry) : d.put here e here = some e := if_pos rfl

theorem put_of_ne {there : Location} (other : there ≠ here) (e : DiskEntry) : d.put here e there = d there :=
  if_neg other

/-! ## Where paths lead -/

theorem follow_cons_eq_ok_iff {before : List String} :
    d.follow (name :: before) = .ok here ↔ ∃ there, d.follow before = .ok there ∧ d there = some .directory ∧
      name.utf8ByteSize ≤ Path.nameLimit ∧ here = if name = ".." then there.tail else name :: there := by
  rw [follow]
  cases leads : d.follow before with
  | error e => simp
  | ok there =>
    cases entry : d there with
    | none => simp [entry]
    | some e =>
      cases e with
      | file bytes => simp [entry]
      | directory =>
        by_cases isLong : Path.nameLimit < name.utf8ByteSize
        · simp [entry, isLong, Nat.not_le.mpr isLong]
        · simp [entry, isLong, Nat.not_lt.mp isLong, eq_comm]

theorem followPath_eq_ok_iff :
    d.followPath path = .ok here ↔ Path.isTooLong path = false ∧ d.follow (Path.names path) = .ok here := by
  rw [followPath]
  split
  · simp [*]
  · simp [*]

/-- Every directory of one disk is a directory of the other. -/
def KeepsDirectories (d d' : Disk) : Prop := ∀ here, d here = some .directory → d' here = some .directory

theorem follow_of_kept (kept : d.KeepsDirectories d') (leads : d.follow names = .ok here) :
    d'.follow names = .ok here := by
  induction names generalizing here with
  | nil => exact leads
  | cons name before ih =>
    obtain ⟨there, first, isDirectory, short, rfl⟩ := follow_cons_eq_ok_iff.mp leads
    exact follow_cons_eq_ok_iff.mpr ⟨there, ih first, kept there isDirectory, short, rfl⟩

theorem followPath_of_kept (kept : d.KeepsDirectories d') (leads : d.followPath path = .ok here) :
    d'.followPath path = .ok here := by
  obtain ⟨short, leads⟩ := followPath_eq_ok_iff.mp leads
  exact followPath_eq_ok_iff.mpr ⟨short, follow_of_kept kept leads⟩

/-- A path with a name behind it leads to that name in a directory. -/
theorem followPath_join (isName : Path.IsName name) (down : name ≠ "..")
    (leads : d.followPath (Path.join path name) = .ok here) :
    ∃ there, d.follow (Path.names path) = .ok there ∧ d there = some .directory ∧ here = name :: there := by
  obtain ⟨-, leads⟩ := followPath_eq_ok_iff.mp leads
  rw [Path.names_join isName] at leads
  obtain ⟨there, first, isDirectory, -, rfl⟩ := follow_cons_eq_ok_iff.mp leads
  exact ⟨there, first, isDirectory, if_neg down⟩

/-- Two paths that never lead to the same place, whatever there is on the way. -/
def Apart (path path' : String) : Prop :=
  ∀ (d d' : Disk) here there, d.followPath path = .ok here → d'.followPath path' = .ok there → here ≠ there

theorem Apart.symm {path' : String} (apart : Apart path path') : Apart path' path :=
  fun d d' here there leads leads' => (apart d' d there here leads' leads).symm

/-- Paths with different names behind them are apart. -/
theorem apart_join {name' : String} (isName : Path.IsName name) (down : name ≠ "..") (isName' : Path.IsName name')
    (down' : name' ≠ "..") (other : name ≠ name') (path path' : String) :
    Apart (Path.join path name) (Path.join path' name') := by
  intro d d' here there leads leads'
  obtain ⟨-, -, -, rfl⟩ := followPath_join isName down leads
  obtain ⟨-, -, -, rfl⟩ := followPath_join isName' down' leads'
  intro same
  exact other (List.cons.inj same).1

/-! ## Files -/

theorem read_eq_ok_iff {bytes : List UInt8} :
    d.read path = .ok bytes ↔ ∃ here, d.followPath path = .ok here ∧ d here = some (.file bytes) := by
  rw [read]
  cases leads : d.followPath path with
  | error e => simp
  | ok here =>
    cases entry : d here with
    | none => simp [entry]
    | some e => cases e <;> simp [entry]

theorem write_eq_ok_iff {bytes : List UInt8} :
    d.write path bytes = .ok d' ↔
      ∃ here, d.followPath path = .ok here ∧ d here ≠ some .directory ∧ d' = d.put here (.file bytes) := by
  rw [write]
  cases leads : d.followPath path with
  | error e => simp
  | ok here =>
    cases entry : d here with
    | none => simp [entry, eq_comm]
    | some e => cases e <;> simp [entry, eq_comm]

/-- A file in a place that is no directory takes no directory away. -/
theorem keepsDirectories_put (free : d here ≠ some .directory) (e : DiskEntry) :
    d.KeepsDirectories (d.put here e) := by
  intro there isDirectory
  have other : there ≠ here := by
    rintro rfl
    exact free isDirectory
  rw [put_of_ne other, isDirectory]

theorem keepsDirectories_write {bytes : List UInt8} (writes : d.write path bytes = .ok d') : d.KeepsDirectories d' := by
  obtain ⟨here, -, free, rfl⟩ := write_eq_ok_iff.mp writes
  exact keepsDirectories_put free _

theorem read_of_write {bytes : List UInt8} (writes : d.write path bytes = .ok d') : d'.read path = .ok bytes := by
  have kept := keepsDirectories_write writes
  obtain ⟨here, leads, free, rfl⟩ := write_eq_ok_iff.mp writes
  exact read_eq_ok_iff.mpr ⟨here, followPath_of_kept kept leads, put_self d here _⟩

/-- Where one path leads, writing at another that is apart from it changes nothing. -/
theorem entry_of_write {path' : String} {bytes : List UInt8} (writes : d.write path bytes = .ok d')
    (apart : Apart path' path) {d₀ : Disk} (leads : d₀.followPath path' = .ok here) : d' here = d here := by
  obtain ⟨there, leads', -, rfl⟩ := write_eq_ok_iff.mp writes
  exact put_of_ne (apart d₀ d here there leads leads') _

theorem read_of_write_apart {path' : String} {bytes bytes' : List UInt8} (writes : d.write path bytes = .ok d')
    (apart : Apart path' path) (isRead : d.read path' = .ok bytes') : d'.read path' = .ok bytes' := by
  obtain ⟨here, leads, isFile⟩ := read_eq_ok_iff.mp isRead
  refine read_eq_ok_iff.mpr ⟨here, followPath_of_kept (keepsDirectories_write writes) leads, ?_⟩
  rw [entry_of_write writes apart leads, isFile]

/-- A path leads to a place that no directory takes. -/
def HasPlace (d : Disk) (path : String) : Prop := ∃ here, d.followPath path = .ok here ∧ d here ≠ some .directory

/-- A path has a place exactly if a file can be written there. -/
theorem hasPlace_iff_write {bytes : List UInt8} : d.HasPlace path ↔ (d.write path bytes).isOk = true := by
  constructor
  · rintro ⟨here, leads, free⟩
    rw [write_eq_ok_iff.mpr ⟨here, leads, free, rfl⟩]
    rfl
  · intro writes
    cases written : d.write path bytes with
    | error e => simp [written, Except.isOk, Except.toBool] at writes
    | ok d' =>
      obtain ⟨here, leads, free, -⟩ := write_eq_ok_iff.mp written
      exact ⟨here, leads, free⟩

instance : Decidable (d.HasPlace path) :=
  decidable_of_iff ((d.write path []).isOk = true) hasPlace_iff_write.symm

theorem hasPlace_of_write {path' : String} {bytes : List UInt8} (writes : d.write path bytes = .ok d')
    (apart : Apart path' path) (hasPlace : d.HasPlace path') : d'.HasPlace path' := by
  obtain ⟨here, leads, free⟩ := hasPlace
  refine ⟨here, followPath_of_kept (keepsDirectories_write writes) leads, ?_⟩
  rw [entry_of_write writes apart leads]
  exact free

/-! ## Directories -/

/-- One disk has all that the other has, and beyond it only directories where there was nothing. -/
def Grows (d d' : Disk) : Prop := ∀ here, d' here = d here ∨ d here = none ∧ d' here = some .directory

theorem Grows.refl (d : Disk) : d.Grows d := fun _ => .inl rfl

theorem Grows.trans {d'' : Disk} (first : d.Grows d') (second : d'.Grows d'') : d.Grows d'' := by
  intro here
  rcases second here with same | ⟨absent, made⟩
  · rw [same]
    exact first here
  · rcases first here with same | ⟨-, present⟩
    · exact .inr ⟨same ▸ absent, made⟩
    · rw [absent] at present
      contradiction

/-- Files come from the disk that grew. -/
theorem Grows.file {bytes : List UInt8} (grows : d.Grows d') (isFile : d' here = some (.file bytes)) :
    d here = some (.file bytes) := by
  rcases grows here with same | ⟨-, made⟩
  · rw [← same, isFile]
  · rw [isFile] at made
    cases made

theorem grows_put (absent : d here = none) : d.Grows (d.put here .directory) := by
  intro there
  by_cases same : there = here
  · rw [same]
    exact .inr ⟨absent, put_self d here .directory⟩
  · exact .inl (put_of_ne same .directory)

theorem makeDirectory_eq_ok_iff :
    d.makeDirectory names = .ok d' ↔
      ∃ here, d.follow names = .ok here ∧ d here = none ∧ d' = d.put here .directory := by
  rw [makeDirectory]
  cases leads : d.follow names with
  | error e => simp
  | ok here => cases entry : d here <;> simp [entry, eq_comm]

theorem grows_makeDirectory (made : d.makeDirectory names = .ok d') : d.Grows d' := by
  obtain ⟨here, -, absent, rfl⟩ := makeDirectory_eq_ok_iff.mp made
  exact grows_put absent

theorem grows_ensureDirectory (d : Disk) (names : List String) : d.Grows (d.ensureDirectory names).1 := by
  rw [ensureDirectory]
  cases made : d.makeDirectory names with
  | error e => exact .refl d
  | ok d' => exact grows_makeDirectory made

theorem grows_makeDirectories (d : Disk) (names : List String) : d.Grows (d.makeDirectories names).1 := by
  induction names with
  | nil => exact .refl d
  | cons name before ih =>
    rw [makeDirectories]
    cases made : d.makeDirectory (name :: before) with
    | ok d' => exact grows_makeDirectory made
    | error e =>
      cases e with
      | notFound =>
        cases parents : d.makeDirectories before with
        | mk parent fault =>
          rw [parents] at ih
          cases fault with
          | none => exact ih.trans (grows_ensureDirectory parent (name :: before))
          | some e => exact ih
      | _ => exact .refl d

theorem grows_makePath (d : Disk) (path : String) : d.Grows (d.makePath path).1 := by
  rw [makePath]
  split
  · exact .refl d
  · exact grows_makeDirectories d (Path.names path)

end Disk

end DocComment
