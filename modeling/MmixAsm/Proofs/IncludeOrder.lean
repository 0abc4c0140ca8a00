import Mathlib.Data.List.Chain
import MmixAsm.Proofs.FirstMentions
import MmixAsm.Proofs.IncludedFiles
import MmixAsm.Proofs.Outcome

/-
  The order of included files.

  Following live INCLUDE lines from a file unrolls it into a
  tree.  If no file is missing and none includes itself, the
  tree is finite.  Listing it from the leaves, every file
  behind what it includes, mentions a file wherever it is
  included.  The order of a program keeps the first mentions.

  Key definitions include:
    * `MmixAsm.Library.Includes`
    * `MmixAsm.Library.Reaches`
    * `MmixAsm.Library.Unrolls`
    * `MmixAsm.Library.Preceded`
    * `MmixAsm.Library.Finishes`

  Key theorems include:
    * `MmixAsm.Library.Unrolls.mem_iff`
    * `MmixAsm.Library.Unrolls.not_includesItself`
    * `MmixAsm.Library.Finishes.exists_unrolls`
    * `MmixAsm.Library.fault_of_orderFrom`
    * `MmixAsm.Library.flatten_includes_once`
-/

------------------------------------------------------------
-- Live Inclusions
------------------------------------------------------------

namespace MmixAsm

theorem MacroTable.mem_inclusions
    {table : MacroTable}
    {file : String}
    {offset : Nat} :
    (file, offset) ∈ table.inclusions ↔
      .inclusion file offset ∈ table := by
  unfold inclusions
  rw [List.mem_filterMap]
  constructor
  · rintro ⟨entry, hEntry, hInclusion⟩
    cases entry <;> cases hInclusion
    exact hEntry
  · intro hEntry
    exact ⟨_, hEntry, rfl⟩

namespace Library

/- A file has a live INCLUDE line for another one. -/
def Includes
    (library : Library)
    (file other : String) : Prop :=
  ∃ unit offset,
    library.unit? file = some unit ∧
      .inclusion other offset ∈ unit.table ∧
      unit.isDropped offset = false

/- A file is met when live INCLUDE lines are followed. -/
def Reaches (library : Library) : String → String → Prop :=
  Relation.ReflTransGen library.Includes

/- A file includes itself, directly or through others. -/
def IncludesItself
    (library : Library)
    (file : String) : Prop :=
  Relation.TransGen library.Includes file file

variable {library : Library}

theorem includes_iff
    {file other : String}
    {unit : SourceUnit}
    (hUnit : library.unit? file = some unit) :
    library.Includes file other ↔
      other ∈ unit.liveInclusions := by
  unfold Includes SourceUnit.liveInclusions
  simp only [hUnit, Option.some.injEq, List.mem_map,
    List.mem_filter]
  constructor
  · rintro ⟨_, offset, rfl, hEntry, hLive⟩
    exact ⟨(other, offset),
      ⟨MacroTable.mem_inclusions.mpr hEntry, by simp [hLive]⟩,
      rfl⟩
  · rintro ⟨⟨_, offset⟩, ⟨hEntry, hLive⟩, rfl⟩
    exact ⟨unit, offset, rfl,
      MacroTable.mem_inclusions.mp hEntry, by simpa using hLive⟩

end Library

end MmixAsm

------------------------------------------------------------
-- Unrolled Files
------------------------------------------------------------

namespace MmixAsm

namespace Library

/-
  The trees of some files, listed from the leaves.  Every file
  stands behind the trees of the files that it includes, in
  the order of its INCLUDE lines, and is mentioned as often as
  it is included.
-/
inductive Unrolls (library : Library) :
    List String → List String → Prop
  | nil : Unrolls library [] []
  | cons
      {file : String}
      {rest inner outer : List String}
      {unit : SourceUnit}
      (hUnit : library.unit? file = some unit)
      (hInner : Unrolls library unit.liveInclusions inner)
      (hOuter : Unrolls library rest outer) :
      Unrolls library (file :: rest) (inner ++ file :: outer)

variable {library : Library}
variable {files names : List String}
variable {file other : String}

theorem Unrolls.append
    {others names' : List String}
    (h : library.Unrolls files names)
    (hOthers : library.Unrolls others names') :
    library.Unrolls (files ++ others) (names ++ names') := by
  induction h with
  | nil => exact hOthers
  | cons hUnit hInner _ _ ih =>
      rw [List.append_assoc]
      exact .cons hUnit hInner ih

theorem Unrolls.subset
    (h : library.Unrolls files names) :
    files ⊆ names := by
  induction h with
  | nil => exact List.nil_subset _
  | cons _ _ _ _ ih =>
      intro name hName
      rcases List.mem_cons.mp hName with rfl | hName
      · simp
      · simp [ih hName]

/- The tree of a file that is mentioned is listed as well. -/
theorem Unrolls.exists_of_mem
    (h : library.Unrolls files names)
    (hFile : file ∈ names) :
    ∃ tree, library.Unrolls [file] tree ∧
      tree.Sublist names := by
  induction h with
  | nil => cases hFile
  | @cons head _ inner outer _ hUnit hInner _ ihInner ihOuter =>
      rcases List.mem_append.mp hFile with hFile | hFile
      · rcases ihInner hFile with ⟨tree, hTree, hSublist⟩
        exact ⟨tree, hTree, hSublist.trans (by simp)⟩
      · rcases List.mem_cons.mp hFile with rfl | hFile
        · exact ⟨inner ++ [file], .cons hUnit hInner .nil,
            by simp⟩
        · rcases ihOuter hFile with ⟨tree, hTree, hSublist⟩
          refine ⟨tree, hTree, ?_⟩
          exact (hSublist.cons head).trans (by simp)

/- A file that is included has a smaller tree. -/
theorem Unrolls.exists_shorter
    (h : library.Unrolls [file] names)
    (hOther : library.Includes file other) :
    ∃ tree, library.Unrolls [other] tree ∧
      tree.length < names.length := by
  cases h with
  | @cons _ _ inner _ unit hUnit hInner hOuter =>
      cases hOuter
      have hMem := hInner.subset ((includes_iff hUnit).mp hOther)
      rcases hInner.exists_of_mem hMem with
        ⟨tree, hTree, hSublist⟩
      refine ⟨tree, hTree, ?_⟩
      have hLength := hSublist.length_le
      simp only [List.length_append, List.length_singleton]
      omega

theorem Unrolls.exists_of_transGen
    (h : library.Unrolls [file] names)
    (hOther : Relation.TransGen library.Includes file other) :
    ∃ tree, library.Unrolls [other] tree ∧
      tree.length < names.length := by
  induction hOther with
  | single hOther => exact h.exists_shorter hOther
  | tail _ hNext ih =>
      rcases ih with ⟨tree, hTree, hLess⟩
      rcases hTree.exists_shorter hNext with
        ⟨next, hNext, hLessNext⟩
      exact ⟨next, hNext, hLessNext.trans hLess⟩

/- No file that can be unrolled includes itself. -/
theorem Unrolls.not_includesItself
    (h : library.Unrolls [file] names) :
    ¬ library.IncludesItself file := by
  intro hCycle
  induction hLength : names.length using Nat.strong_induction_on
    generalizing names with
  | _ length ih =>
      subst hLength
      rcases h.exists_of_transGen hCycle with
        ⟨tree, hTree, hLess⟩
      exact ih tree.length hLess hTree rfl

/- Whatever a file that can be unrolled reaches can be, too. -/
theorem Unrolls.exists_of_reaches
    (h : library.Unrolls [file] names)
    (hOther : library.Reaches file other) :
    ∃ tree, library.Unrolls [other] tree := by
  rcases Relation.reflTransGen_iff_eq_or_transGen.mp hOther with
    rfl | hOther
  · exact ⟨names, h⟩
  · rcases h.exists_of_transGen hOther with ⟨tree, hTree, _⟩
    exact ⟨tree, hTree⟩

theorem Unrolls.exists_unit
    (h : library.Unrolls [file] names) :
    ∃ unit, library.unit? file = some unit := by
  cases h with
  | cons hUnit _ _ => exact ⟨_, hUnit⟩

end Library

end MmixAsm

------------------------------------------------------------
-- Files Behind Their Inclusions
------------------------------------------------------------

namespace MmixAsm

namespace Library

/-
  Every file of a list stands behind the files that it
  includes, which are in the list or among those seen before.
-/
def Preceded
    (library : Library)
    (seen : List String) :
    List String → Prop
| [] => True
| file :: rest =>
    (∀ other, library.Includes file other → other ∈ seen) ∧
      library.Preceded (seen ++ [file]) rest

variable {library : Library}
variable {seen names others : List String}

theorem Preceded.mono
    {more : List String}
    (h : library.Preceded seen names)
    (hSeen : seen ⊆ more) :
    library.Preceded more names := by
  induction names generalizing seen more with
  | nil => trivial
  | cons file rest ih =>
      refine ⟨fun other hOther => hSeen (h.1 other hOther), ?_⟩
      refine ih h.2 (List.append_subset.mpr ⟨?_, by simp⟩)
      exact List.Subset.trans hSeen (by simp)

theorem preceded_append :
    library.Preceded seen (names ++ others) ↔
      library.Preceded seen names ∧
        library.Preceded (seen ++ names) others := by
  induction names generalizing seen with
  | nil => simp [Preceded]
  | cons file rest ih =>
      rw [List.cons_append, Preceded, Preceded, ih, and_assoc,
        List.append_assoc, List.singleton_append]

/- A tree lists every file behind what it includes. -/
theorem Unrolls.preceded
    {files : List String}
    (h : library.Unrolls files names) :
    library.Preceded [] names := by
  induction h with
  | nil => trivial
  | @cons file _ inner _ _ hUnit hInner _ ihInner ihOuter =>
      refine preceded_append.mpr ⟨ihInner, ?_, ?_⟩
      · intro other hOther
        exact hInner.subset ((includes_iff hUnit).mp hOther)
      · exact ihOuter.mono (List.nil_subset _)

/- First mentions stand behind the first mentions they need. -/
theorem Preceded.eraseDups
    (h : library.Preceded [] names) :
    library.Preceded [] names.eraseDups := by
  induction names using List.reverseRecOn with
  | nil => trivial
  | append_singleton front name ih =>
      rcases preceded_append.mp h with ⟨hFront, hName, _⟩
      rw [eraseDups_concat]
      split
      · exact ih hFront
      · refine preceded_append.mpr ⟨ih hFront, ?_, trivial⟩
        intro other hOther
        exact List.mem_eraseDups.mpr (hName other hOther)

theorem Preceded.sublist
    {file other : String}
    (h : library.Preceded [] names)
    (hFile : file ∈ names)
    (hOther : library.Includes file other) :
    [other, file].Sublist names := by
  rcases List.append_of_mem hFile with ⟨front, back, rfl⟩
  rcases preceded_append.mp h with ⟨_, hBefore, _⟩
  have hMem : other ∈ front := hBefore other hOther
  exact (List.singleton_sublist.mpr hMem).append
    (List.singleton_sublist.mpr List.mem_cons_self)

theorem Unrolls.exists_reaches
    {files : List String}
    {name : String}
    (h : library.Unrolls files names)
    (hName : name ∈ names) :
    ∃ file ∈ files, library.Reaches file name := by
  induction h with
  | nil => cases hName
  | @cons file _ _ _ _ hUnit _ _ ihInner ihOuter =>
      rcases List.mem_append.mp hName with hName | hName
      · rcases ihInner hName with ⟨other, hOther, hReaches⟩
        exact ⟨file, List.mem_cons_self,
          hReaches.head ((includes_iff hUnit).mpr hOther)⟩
      · rcases List.mem_cons.mp hName with rfl | hName
        · exact ⟨name, List.mem_cons_self, .refl⟩
        · rcases ihOuter hName with ⟨other, hOther, hReaches⟩
          exact ⟨other, List.mem_cons_of_mem _ hOther, hReaches⟩

/- The tree of a file mentions exactly what it reaches. -/
theorem Unrolls.mem_iff
    {file name : String}
    (h : library.Unrolls [file] names) :
    name ∈ names ↔ library.Reaches file name := by
  constructor
  · intro hName
    rcases h.exists_reaches hName with ⟨other, hOther, hReaches⟩
    rwa [List.mem_singleton.mp hOther] at hReaches
  · intro hName
    induction hName with
    | refl => exact h.subset List.mem_cons_self
    | tail _ hNext ih =>
        exact (h.preceded.sublist ih hNext).subset
          List.mem_cons_self

end Library

end MmixAsm

------------------------------------------------------------
-- Successful Runs
------------------------------------------------------------

namespace MmixAsm

namespace Library

/-
  The runs that finish all files: a file that is finished
  already is passed over, and any other file is finished
  behind the files that it includes.
-/
inductive Finishes (library : Library) :
    List String → List String → List String → List String → Prop
  | nil
      {path done : List String} :
      Finishes library path [] done done
  | skip
      {path rest done result : List String}
      {file : String}
      (hPath : file ∉ path)
      (hDone : file ∈ done)
      (hRest : Finishes library path rest done result) :
      Finishes library path (file :: rest) done result
  | visit
      {path rest done inner result : List String}
      {file : String}
      {unit : SourceUnit}
      (hPath : file ∉ path)
      (hDone : file ∉ done)
      (hUnit : library.unit? file = some unit)
      (hInner : Finishes library (file :: path)
        unit.liveInclusions done inner)
      (hRest : Finishes library path rest (inner ++ [file])
        result) :
      Finishes library path (file :: rest) done result

variable {library : Library}
variable {path files done result : List String}

theorem finishes_of_orderFrom
    (h : library.orderFrom path files done = .ok result) :
    library.Finishes path files done result := by
  induction path, files, done using orderFrom.induct library
    generalizing result with
  | case1 path done =>
      rw [orderFrom_nil] at h
      cases h
      exact .nil
  | case2 path done file rest hPath =>
      rw [orderFrom_cons, if_pos hPath] at h
      cases h
  | case3 path done file rest hPath hDone ih =>
      rw [orderFrom_cons, if_neg hPath, if_pos hDone] at h
      exact .skip (by simpa using hPath) (by simpa using hDone)
        (ih h)
  | case4 path done file rest hPath hDone hUnit =>
      simp only [orderFrom_cons, if_neg hPath, if_neg hDone,
        hUnit, Option.map_none] at h
      cases h
  | case5 path done file rest hPath hDone unit hUnit e hInner =>
      simp only [orderFrom_cons, if_neg hPath, if_neg hDone,
        hUnit, Option.map_some, hInner] at h
      cases h
  | case6 path done file rest hPath hDone unit hUnit inner hInner
      ihInner ih =>
      simp only [orderFrom_cons, if_neg hPath, if_neg hDone,
        hUnit, Option.map_some, hInner] at h
      exact .visit (by simpa using hPath) (by simpa using hDone)
        hUnit (ihInner hInner) (ih h)

/- A run does not finish what it is in the middle of. -/
theorem Finishes.notMem_path
    {file : String}
    (h : library.Finishes path files done result)
    (hFile : file ∈ result)
    (hNew : file ∉ done) :
    file ∉ path := by
  induction h with
  | nil => exact absurd hFile hNew
  | skip _ _ _ ih => exact ih hFile hNew
  | @visit _ _ _ inner _ head _ hPath _ _ _ _ ihInner ih =>
      by_cases hInner : file ∈ inner
      · exact mt (List.mem_cons_of_mem head)
          (ihInner hInner hNew)
      · by_cases hHead : file = head
        · rw [hHead]
          exact hPath
        · exact ih hFile (by simp [hInner, hHead])

/-
  A run keeps the first mentions of the trees of its files.
  The names `seen` are those mentioned before the run.
-/
theorem Finishes.exists_unrolls
    {before seen : List String}
    (h : library.Finishes path files done result)
    (hSeen : library.Unrolls before seen)
    (hDone : done = seen.eraseDups) :
    ∃ names, library.Unrolls files names ∧
      result = (seen ++ names).eraseDups := by
  induction h generalizing before seen with
  | nil =>
      refine ⟨[], .nil, ?_⟩
      rw [List.append_nil]
      exact hDone
  | @skip _ rest _ _ file _ hFile _ ih =>
      -- The tree of the file is among the names seen before.
      rw [hDone, List.mem_eraseDups] at hFile
      rcases hSeen.exists_of_mem hFile with
        ⟨tree, hTree, hSublist⟩
      rw [← eraseDups_append_of_subset hSublist.subset] at hDone
      rcases ih (hSeen.append hTree) hDone with
        ⟨names, hNames, hResult⟩
      refine ⟨tree ++ names, hTree.append hNames, ?_⟩
      rw [hResult, List.append_assoc]
  | @visit _ rest _ _ _ file _ _ hFile hUnit hInner _ ihInner ih =>
      rcases ihInner hSeen hDone with ⟨names, hNames, rfl⟩
      have hTree : library.Unrolls [file] (names ++ [file]) :=
        .cons hUnit hNames .nil
      have hNew : file ∉ seen ++ names := by
        intro hMem
        exact hInner.notMem_path (List.mem_eraseDups.mpr hMem)
          hFile List.mem_cons_self
      have hNext : (seen ++ names).eraseDups ++ [file] =
          (seen ++ (names ++ [file])).eraseDups := by
        rw [← List.append_assoc, eraseDups_concat, if_neg hNew]
      rcases ih (hSeen.append hTree) hNext with
        ⟨others, hOthers, hResult⟩
      refine ⟨names ++ [file] ++ others,
        hTree.append hOthers, ?_⟩
      rw [hResult, List.append_assoc]

theorem exists_unrolls_of_fileOrder
    {entry : String}
    {order : List String}
    (h : library.fileOrder entry = .ok order) :
    ∃ names, library.Unrolls [entry] names ∧
      order = names.eraseDups :=
  (finishes_of_orderFrom h).exists_unrolls .nil rfl

end Library

end MmixAsm

------------------------------------------------------------
-- Faults
------------------------------------------------------------

namespace MmixAsm

namespace Library

/-
  What is wrong with the files that an entry reaches: one is
  missing, or a chain of INCLUDE lines returns to a file.
-/
inductive InclusionFault
    (library : Library)
    (entry : String) : MacroError → Prop
  | missing
      {file : String}
      (hReaches : library.Reaches entry file)
      (hUnit : library.unit? file = none) :
      InclusionFault library entry (.fileNotFound file)
  | cycle
      {path : List String}
      {file : String}
      (hEntry : (path ++ [file]).head? = some entry)
      (hChain : (path ++ [file]).IsChain library.Includes)
      (hMem : file ∈ path) :
      InclusionFault library entry (.includeCycle (path ++ [file]))

variable {library : Library}
variable {entry : String}

/- The last file of a chain is reached from the first. -/
theorem reaches_of_isChain
    {path : List String}
    {file : String}
    (hEntry : (path ++ [file]).head? = some entry)
    (hChain : (path ++ [file]).IsChain library.Includes) :
    library.Reaches entry file := by
  have hReaches :=
    List.relationReflTransGen_of_exists_isChain _ hChain
      (by simp)
  rw [List.head?_eq_some_head (by simp), Option.some.injEq]
    at hEntry
  rwa [List.getLast_append_singleton, hEntry] at hReaches

/- A chain goes on to what its last file includes. -/
theorem isChain_concat
    {path : List String}
    {file other : String}
    (hChain : (path ++ [file]).IsChain library.Includes)
    (hOther : library.Includes file other) :
    (path ++ [file] ++ [other]).IsChain library.Includes := by
  refine hChain.append (.singleton other) ?_
  intro last hLast next hNext
  rw [List.getLast?_concat, Option.mem_some] at hLast
  rw [List.head?_singleton, Option.mem_some] at hNext
  rwa [← hLast, ← hNext]

/-
  A run that fails meets a fault.  The path is a chain from
  the entry to each of the files.
-/
theorem fault_of_orderFrom
    {path files done : List String}
    {e : MacroError}
    (hEntry : ∀ file ∈ files,
      (path.reverse ++ [file]).head? = some entry)
    (hChain : ∀ file ∈ files,
      (path.reverse ++ [file]).IsChain library.Includes)
    (h : library.orderFrom path files done = .error e) :
    library.InclusionFault entry e := by
  induction path, files, done using orderFrom.induct library with
  | case1 path done =>
      rw [orderFrom_nil] at h
      cases h
  | case2 path done file rest hPath =>
      rw [orderFrom_cons, if_pos hPath] at h
      cases h
      exact .cycle (hEntry file List.mem_cons_self)
        (hChain file List.mem_cons_self) (by simpa using hPath)
  | case3 path done file rest hPath hDone ih =>
      rw [orderFrom_cons, if_neg hPath, if_pos hDone] at h
      exact ih (List.forall_mem_cons.mp hEntry).2
        (List.forall_mem_cons.mp hChain).2 h
  | case4 path done file rest hPath hDone hUnit =>
      simp only [orderFrom_cons, if_neg hPath, if_neg hDone,
        hUnit, Option.map_none] at h
      cases h
      exact .missing
        (reaches_of_isChain (hEntry file List.mem_cons_self)
          (hChain file List.mem_cons_self)) hUnit
  | case5 path done file rest hPath hDone unit hUnit e' hInner ih =>
      simp only [orderFrom_cons, if_neg hPath, if_neg hDone,
        hUnit, Option.map_some, hInner] at h
      cases h
      refine ih ?_ ?_ hInner
      · intro other _
        rw [List.reverse_cons, List.head?_append,
          hEntry file List.mem_cons_self]
        rfl
      · intro other hOther
        rw [List.reverse_cons]
        exact isChain_concat (hChain file List.mem_cons_self)
          ((includes_iff hUnit).mpr hOther)
  | case6 path done file rest hPath hDone unit hUnit inner hInner
      _ ih =>
      simp only [orderFrom_cons, if_neg hPath, if_neg hDone,
        hUnit, Option.map_some, hInner] at h
      exact ih (List.forall_mem_cons.mp hEntry).2
        (List.forall_mem_cons.mp hChain).2 h

theorem fault_of_fileOrder
    {e : MacroError}
    (h : library.fileOrder entry = .error e) :
    library.InclusionFault entry e := by
  refine fault_of_orderFrom ?_ ?_ h
  · intro file hFile
    rw [List.mem_singleton.mp hFile]
    rfl
  · intro file _
    exact .singleton file

/- A file to which a chain returns includes itself. -/
theorem includesItself_of_isChain
    {path : List String}
    {file : String}
    (hChain : (path ++ [file]).IsChain library.Includes)
    (hMem : file ∈ path) :
    library.IncludesItself file := by
  have hSteps : (path ++ [file]).IsChain
      (Relation.TransGen library.Includes) :=
    hChain.imp fun _ _ => .single
  have hPairs := List.isChain_iff_pairwise.mp hSteps
  exact (List.pairwise_append.mp hPairs).2.2 file hMem file
    List.mem_cons_self

/-
  An entry has an order exactly if all files that it reaches
  are there and none of them includes itself.
-/
theorem exists_fileOrder_iff :
    (∃ order, library.fileOrder entry = .ok order) ↔
      (∀ file, library.Reaches entry file →
        ∃ unit, library.unit? file = some unit) ∧
        ∀ file, library.Reaches entry file →
          ¬ library.IncludesItself file := by
  constructor
  · rintro ⟨order, hOrder⟩
    rcases exists_unrolls_of_fileOrder hOrder with
      ⟨names, hNames, _⟩
    constructor
    · intro file hFile
      rcases hNames.exists_of_reaches hFile with ⟨_, hTree⟩
      exact hTree.exists_unit
    · intro file hFile
      rcases hNames.exists_of_reaches hFile with ⟨_, hTree⟩
      exact hTree.not_includesItself
  · rintro ⟨hUnits, hAcyclic⟩
    cases hOrder : library.fileOrder entry with
    | ok order => exact ⟨order, rfl⟩
    | error e =>
        cases fault_of_fileOrder hOrder with
        | missing hReaches hUnit =>
            rcases hUnits _ hReaches with ⟨unit, hSome⟩
            cases hUnit.symm.trans hSome
        | cycle hEntry hChain hMem =>
            exact absurd (includesItself_of_isChain hChain hMem)
              (hAcyclic _ (reaches_of_isChain hEntry hChain))

end Library

end MmixAsm

------------------------------------------------------------
-- Programs
------------------------------------------------------------

namespace MmixAsm

namespace Library

/- Names that are closed under inclusion hold what they reach. -/
theorem within_of_reaches
    {library : Library}
    {within : String → Prop}
    (hClosed : ∀ name unit, within name →
      library.unit? name = some unit →
        ∀ file ∈ unit.liveInclusions, within file)
    {entry file : String}
    (hEntry : within entry)
    (hFile : library.Reaches entry file) :
    within file := by
  induction hFile with
  | refl => exact hEntry
  | @tail middle last _ hNext ih =>
      have hIncludes := hNext
      rcases hIncludes with ⟨unit, _, hUnit, _⟩
      exact hClosed middle unit ih hUnit last
        ((includes_iff hUnit).mp hNext)

/-
  A program reads nothing but the live inclusions and the
  instructions of the files that its entry can meet.
-/
theorem flatten_congr_within
    {left right : Library}
    {within : String → Prop}
    (hUnits : ∀ name, within name →
      (left.unit? name).map
          (fun unit => (unit.liveInclusions, unit.instructions)) =
        (right.unit? name).map
          (fun unit => (unit.liveInclusions, unit.instructions)))
    (hClosed : ∀ name unit, within name →
      left.unit? name = some unit →
        ∀ file ∈ unit.liveInclusions, within file)
    {entry : String}
    (hEntry : within entry) :
    left.flatten entry = right.flatten entry := by
  have hOrder : left.fileOrder entry =
      right.fileOrder entry := by
    refine orderFrom_congr_within ?_ hClosed [] [] ?_
    · intro name hName
      have hInclusions :=
        congrArg (Option.map Prod.fst) (hUnits name hName)
      rwa [Option.map_map, Option.map_map] at hInclusions
    · intro file hFile
      rwa [List.mem_singleton.mp hFile]
  unfold flatten
  rw [← hOrder]
  cases hLeft : left.fileOrder entry with
  | error e => rfl
  | ok order =>
      rcases exists_unrolls_of_fileOrder hLeft with
        ⟨names, hNames, rfl⟩
      refine congrArg Except.ok ?_
      apply List.flatMap_congr
      intro file hFile
      have hWithin := within_of_reaches hClosed hEntry
        (hNames.mem_iff.mp (List.mem_eraseDups.mp hFile))
      have hInstructions :=
        congrArg (Option.map Prod.snd) (hUnits file hWithin)
      rw [Option.map_map, Option.map_map] at hInstructions
      rw [instructionsOf_eq, instructionsOf_eq]
      exact congrArg (Option.getD · []) hInstructions

/-
  A program can be put together exactly if its entry reaches
  only files that are there and none that includes itself, and
  otherwise a missing file or a chain that returns is named.
  The program consists of the files that the entry reaches,
  each once, at its first mention in the tree of the entry.
  So it stands behind all files that it includes.
-/
theorem flatten_includes_once
    (library : Library)
    (entry : String) :
    ((∃ program, library.flatten entry = .ok program) ↔
      (∀ file, library.Reaches entry file →
        ∃ unit, library.unit? file = some unit) ∧
        ∀ file, library.Reaches entry file →
          ¬ library.IncludesItself file) ∧
      (∀ e, library.flatten entry = .error e →
        library.InclusionFault entry e) ∧
      ∀ program, library.flatten entry = .ok program →
        ∃ names order,
          library.Unrolls [entry] names ∧
            order = names.eraseDups ∧
            program = order.flatMap library.instructionsOf ∧
            order.Nodup ∧
            (∀ file,
              file ∈ order ↔ library.Reaches entry file) ∧
            ∀ file other, file ∈ order →
              library.Includes file other →
                [other, file].Sublist order := by
  refine ⟨?_, ?_, ?_⟩
  · rw [← exists_fileOrder_iff]
    constructor
    · rintro ⟨program, hProgram⟩
      rcases exists_of_map_eq_ok hProgram with ⟨order, hOrder, _⟩
      exact ⟨order, hOrder⟩
    · rintro ⟨order, hOrder⟩
      exact ⟨order.flatMap library.instructionsOf,
        by rw [flatten, hOrder]; rfl⟩
  · intro e hFault
    exact fault_of_fileOrder (fails_of_map_eq_error hFault)
  · intro program hProgram
    rcases exists_of_map_eq_ok hProgram with
      ⟨order, hOrder, rfl⟩
    rcases exists_unrolls_of_fileOrder hOrder with
      ⟨names, hNames, rfl⟩
    refine ⟨names, _, hNames, rfl, rfl, nodup_eraseDups names,
      ?_, ?_⟩
    · intro file
      rw [List.mem_eraseDups, hNames.mem_iff]
    · intro file other hFile hOther
      exact hNames.preceded.eraseDups.sublist hFile hOther

/-
  Two files include a third one, and the entry includes both.
  The line of the entry that asks for a missing file is
  dropped.
-/
def diamondLibrary : Library where
  units := [
    ("a", ⟨[.vacant, .live (.op ⟨none, "SETL", ["$1", "1"]⟩)],
      [.inclusion "base" 0]⟩),
    ("b", ⟨[.vacant, .live (.op ⟨none, "SETL", ["$2", "2"]⟩)],
      [.inclusion "base" 0]⟩),
    ("base", ⟨[.live (.op ⟨none, "SETL", ["$0", "0"]⟩)], []⟩),
    ("main", ⟨[.live (.op ⟨none, "SWYM", []⟩), .vacant,
        .dropped, .vacant],
      [.inclusion "a" 1, .inclusion "missing" 2,
        .inclusion "b" 3]⟩)]

theorem diamondLibrary_includes_once :
    diamondLibrary.flatten "main" =
        .ok [
          .op ⟨none, "SETL", ["$0", "0"]⟩,
          .op ⟨none, "SETL", ["$1", "1"]⟩,
          .op ⟨none, "SETL", ["$2", "2"]⟩,
          .op ⟨none, "SWYM", []⟩] ∧
      diamondLibrary.Includes "a" "base" ∧
      ∃ names order,
        diamondLibrary.Unrolls ["main"] names ∧
          order = names.eraseDups ∧
          order.Nodup ∧
          ["base", "a"].Sublist order ∧
          "missing" ∉ order := by
  have hOrder : diamondLibrary.fileOrder "main" =
      .ok ["base", "a", "b", "main"] := by
    have hMain : (diamondLibrary.unit? "main").map
        (·.liveInclusions) = some ["a", "b"] := by
      decide
    have hA : (diamondLibrary.unit? "a").map
        (·.liveInclusions) = some ["base"] := by
      decide
    have hB : (diamondLibrary.unit? "b").map
        (·.liveInclusions) = some ["base"] := by
      decide
    have hBase : (diamondLibrary.unit? "base").map
        (·.liveInclusions) = some [] := by
      decide
    simp [fileOrder, orderFrom_cons, hMain, hA, hB, hBase,
      Except.bind]
  have hProgram : diamondLibrary.flatten "main" =
      .ok (["base", "a", "b", "main"].flatMap
        diamondLibrary.instructionsOf) := by
    rw [flatten, hOrder]
    rfl
  rcases flatten_includes_once diamondLibrary "main" with
    ⟨hSuccess, _, hListed⟩
  rcases hListed _ hProgram with
    ⟨names, order, hNames, hFirst, _, hNodup, hMem, hBehind⟩
  have hBase : diamondLibrary.Includes "a" "base" :=
    ⟨_, 0, rfl, List.mem_cons_self, rfl⟩
  have hA : diamondLibrary.Includes "main" "a" :=
    ⟨_, 1, rfl, List.mem_cons_self, rfl⟩
  refine ⟨hProgram, hBase, names, order, hNames, hFirst, hNodup,
    hBehind "a" "base" ((hMem "a").mpr (.single hA)) hBase, ?_⟩
  intro hMissing
  rcases (hSuccess.mp ⟨_, hProgram⟩).1 "missing"
    ((hMem "missing").mp hMissing) with ⟨unit, hUnit⟩
  cases hUnit

end Library

end MmixAsm
