/-
Module: ModelDistribution.Proofs.ChunkFiles
Layer: Proofs
Purpose: Where the chunk files of a file identifier are. Without a separator in the identifier they are
  files of the data directory, different ones for different identifiers and chunks, for the downloader
  and the applicator alike; with one in it they are elsewhere, unless what stands in front of the last
  separator names the directory itself. The tracker admits every identifier.
Imports: ModelDistribution.Peer.ChunkServer, ModelDistribution.Peer.Downloader,
  ModelDistribution.Proofs.Admission, ModelDistribution.Foundation.PathComponents
Trusted boundary: none
Main exports: components_joinPath, components_chunkPath_inj, chunkPath_eq_iff, KeepsInside,
  chunkPath_isChild_iff, StaysInside, staysInside_iff
-/
import ModelDistribution.Peer.ChunkServer
import ModelDistribution.Peer.Downloader
import ModelDistribution.Proofs.Admission
import ModelDistribution.Foundation.PathComponents

namespace ModelDistribution

open Foundation

/-! ### Components of joined paths -/

section Join

variable {base part : String}

theorem joinPath_absolute (absolute : part.toList.head? = some '/') : joinPath base part = part :=
  if_pos absolute

theorem joinPath_empty (part : String) : joinPath "" part = part := by
  unfold joinPath
  split
  · rfl
  · exact String.empty_append

/-- Joining a relative path appends its components. -/
theorem components_joinPath (nonempty : base ≠ "") (relative : part.toList.head? ≠ some '/') :
    components (joinPath base part).toList =
      components base.toList ++ segmentComponents part.toList := by
  rw [joinPath, if_neg relative]
  rcases List.eq_nil_or_concat' base.toList with empty | ⟨front, last, spelled⟩
  · exact absurd (String.toList_inj.mp empty) nonempty
  · by_cases separator : last = '/'
    · have closed : base.toList.getLast?.all (· = '/') = true := by
        simp [spelled, separator]
      rw [if_pos closed, String.toList_append, spelled, separator, List.append_assoc]
      exact components_append_sep front part.toList
    · have unclosed : ¬ base.toList.getLast?.all (· = '/') = true := by
        simp [spelled, separator]
      have trailing : components (base.toList ++ ['/']) = components base.toList :=
        components_append_trailing (by simp [spelled])
      rw [if_neg unclosed, String.toList_append, String.toList_append, List.append_assoc, ← trailing]
      exact components_append_sep base.toList part.toList

/-- Joining a name without a separator adds this name. -/
theorem components_joinPath_leaf (plain : '/' ∉ part.toList) (long : 2 < part.toList.length) :
    components (joinPath base part).toList = components base.toList ++ [.normal part.toList] := by
  by_cases empty : base = ""
  · subst empty
    rw [joinPath_empty, components_leaf plain long]
    rfl
  · rw [components_joinPath empty fun root => plain (List.mem_of_mem_head? root),
      segmentComponents_leaf plain long]

end Join

/-! ### Names of chunk files -/

theorem length_chunkFileName (fileId : List Char) (i : UInt32) :
    2 < (chunkFileName fileId i).length := by
  simp [chunkFileName]
  omega

theorem separator_notMem_chunkFileName {fileId : List Char} (plain : '/' ∉ fileId) (i : UInt32) :
    '/' ∉ chunkFileName fileId i := by
  have noDigit : '/' ∉ paddedDecimal 6 i.toNat := by
    intro mem
    exact absurd (isDigit_of_mem_paddedDecimal mem) (by decide)
  simp [chunkFileName, plain, noDigit]

theorem chunkFileName_append (front fileId : List Char) (i : UInt32) :
    chunkFileName (front ++ fileId) i = front ++ chunkFileName fileId i := by
  simp [chunkFileName]

/-- A plain identifier has its chunk files in the directory. -/
theorem components_chunkPath {fileId : String} (plain : '/' ∉ fileId.toList) (dataDir : String)
    (i : UInt32) :
    components (chunkPath dataDir fileId i).toList =
      components dataDir.toList ++ [.normal (chunkFileName fileId.toList i)] := by
  have spelled := toList_chunkFileName fileId i
  rw [chunkPath, components_joinPath_leaf, spelled]
  · rw [spelled]
    exact separator_notMem_chunkFileName plain i
  · rw [spelled]
    exact length_chunkFileName _ i

section Unambiguous

variable {dataDir f g : String}

/-- Chunk files of plain identifiers have the same components for the same chunk of the same file
only. -/
theorem components_chunkPath_inj (plainF : '/' ∉ f.toList) (plainG : '/' ∉ g.toList) {i j : UInt32} :
    components (chunkPath dataDir f i).toList = components (chunkPath dataDir g j).toList ↔
      f = g ∧ i = j := by
  rw [components_chunkPath plainF, components_chunkPath plainG, List.append_cancel_left_eq,
    List.cons.injEq, PathComponent.normal.injEq, chunkFileName_inj, String.toList_inj]
  simp

/-- The same for the paths themselves. -/
theorem chunkPath_eq_iff (plainF : '/' ∉ f.toList) (plainG : '/' ∉ g.toList) {i j : UInt32} :
    chunkPath dataDir f i = chunkPath dataDir g j ↔ f = g ∧ i = j := by
  constructor
  · intro same
    apply (components_chunkPath_inj plainF plainG).mp
    rw [same]
  · rintro ⟨rfl, rfl⟩
    rfl

/-- The chunk files of the downloader and of the applicator are unambiguous: for identifiers without a
separator they are the same path, and the same file of the directory, exactly for the same chunk of the
same identifier. So neither overwrites or deletes another file than the other means. -/
theorem chunkPath_unambiguous (dataDir : String) {f g : String} (plainF : '/' ∉ f.toList)
    (plainG : '/' ∉ g.toList) (i j : UInt32) :
    let written := chunkPath dataDir f i
    let deleted := (PatchApplicator.mk dataDir g).chunkPath j
    (written = deleted ↔ f = g ∧ i = j) ∧
      (components written.toList = components deleted.toList ↔ f = g ∧ i = j) ∧
      ∀ (disk : Disk) (content : Option (List UInt8)), ¬ (f = g ∧ i = j) →
        writeFile disk written content deleted = disk deleted ∧
          writeFile disk deleted content written = disk written := by
  have paths : chunkPath dataDir f i = (PatchApplicator.mk dataDir g).chunkPath j ↔ f = g ∧ i = j :=
    chunkPath_eq_iff plainF plainG
  refine ⟨paths, components_chunkPath_inj plainF plainG, fun disk content different => ⟨?_, ?_⟩⟩
  · exact writeFile_ne disk content fun same => different (paths.mp same.symm)
  · exact writeFile_ne disk content fun same => different (paths.mp same)

/-- An index of seven digits, and an identifier that looks like a chunk file itself. -/
theorem chunkPath_unambiguous_suffix :
    chunkPath "/data" "m.chunk.000001" 1234567 ≠ (PatchApplicator.mk "/data" "m").chunkPath 1 := by
  have different := (chunkPath_unambiguous "/data" (f := "m.chunk.000001") (g := "m") (by decide)
    (by decide) 1234567 1).1
  intro same
  exact absurd (different.mp same).1 (by decide)

end Unambiguous

/-! ### Staying inside the data directory -/

/-- The identifier has no separator, or what stands in front of its last one names the directory: an
absolute identifier spells the directory out, and a relative one has nothing there but empty segments
and `.`. -/
def KeepsInside (dataDir fileId : List Char) : Prop :=
  '/' ∉ fileId ∨ ∃ front leaf, fileId = front ++ '/' :: leaf ∧ '/' ∉ leaf ∧
    if fileId.head? = some '/' then components (front ++ ['/']) = components dataDir
    else dataDir ≠ [] ∧ ∀ segment ∈ front.splitOn '/', segment = [] ∨ segment = ['.']

/-- A path that ends with a name is a child of the directory in front of it. -/
theorem isChild_iff_of_components {path dir name : List Char} {front : List PathComponent}
    (spelled : components path = front ++ [.normal name]) :
    IsChild path dir ↔ front = components dir := by
  unfold IsChild
  rw [spelled]
  constructor
  · rintro ⟨other, same⟩
    exact List.append_inj_left' same rfl
  · rintro rfl
    exact ⟨name, rfl⟩

/-- Where the chunk file is when the identifier has a separator: in the directory that stands in front
of the last one, which is read relative to the data directory unless it is absolute. -/
theorem chunkPath_isChild_of_separator {dataDir fileId : String} {front leaf : List Char}
    (spelled : fileId.toList = front ++ '/' :: leaf) (plain : '/' ∉ leaf) (i : UInt32) :
    IsChild (chunkPath dataDir fileId i).toList dataDir.toList ↔
      if fileId.toList.head? = some '/' then components (front ++ ['/']) = components dataDir.toList
      else dataDir.toList ≠ [] ∧ segmentComponents front = [] := by
  let part := fileId ++ ".chunk." ++ String.ofList (paddedDecimal 6 i.toNat)
  have partSpelled : part.toList = front ++ '/' :: chunkFileName leaf i := by
    rw [toList_chunkFileName, spelled, chunkFileName_append]
    rfl
  have name : segmentComponents (chunkFileName leaf i) = [.normal (chunkFileName leaf i)] :=
    segmentComponents_leaf (separator_notMem_chunkFileName plain i) (length_chunkFileName leaf i)
  have sameHead : part.toList.head? = fileId.toList.head? := by
    rw [partSpelled, spelled]
    cases front <;> rfl
  have partComponents : components part.toList =
      components (front ++ ['/']) ++ [.normal (chunkFileName leaf i)] := by
    rw [partSpelled, components_append_sep, name]
  by_cases absolute : fileId.toList.head? = some '/'
  · rw [if_pos absolute, chunkPath, joinPath_absolute (sameHead.trans absolute)]
    exact isChild_iff_of_components partComponents
  · rw [if_neg absolute]
    by_cases empty : dataDir = ""
    · -- Without a base the path is the name itself, whose directory is not the empty path.
      subst empty
      rw [chunkPath, joinPath_empty, isChild_iff_of_components partComponents]
      constructor
      · intro none
        exact absurd none (components_ne_nil (by simp))
      · rintro ⟨nonempty, _⟩
        exact absurd rfl nonempty
    · have relative : components (joinPath dataDir part).toList =
          components dataDir.toList ++ segmentComponents front ++
            [.normal (chunkFileName leaf i)] := by
        rw [components_joinPath empty (sameHead ▸ absolute), partSpelled,
          segmentComponents_append_sep, name, List.append_assoc]
      rw [chunkPath, isChild_iff_of_components relative]
      simp [empty]

/-- The chunk files of an identifier are in the directory exactly when it keeps them there. -/
theorem chunkPath_isChild_iff (dataDir fileId : String) (i : UInt32) :
    IsChild (chunkPath dataDir fileId i).toList dataDir.toList ↔
      KeepsInside dataDir.toList fileId.toList := by
  by_cases separated : '/' ∈ fileId.toList
  · obtain ⟨front, leaf, spelled, plain⟩ := exists_last_separator separated
    rw [chunkPath_isChild_of_separator spelled plain, segmentComponents_eq_nil_iff]
    constructor
    · intro inside
      exact .inr ⟨front, leaf, spelled, plain, inside⟩
    · rintro (none | ⟨front', leaf', spelled', plain', inside⟩)
      · exact absurd separated none
      · obtain ⟨rfl, rfl⟩ := append_mark_inj plain plain' (spelled.symm.trans spelled')
        exact inside
  · rw [isChild_iff_of_components (components_chunkPath separated dataDir i)]
    exact iff_of_true rfl (.inl separated)

/-- Only identifiers without a separator keep their chunk files in every directory. -/
theorem keepsInside_forall_iff {fileId : String} :
    (∀ dataDir : String, KeepsInside dataDir.toList fileId.toList) ↔ '/' ∉ fileId.toList := by
  constructor
  · intro everywhere
    rcases everywhere "" with plain | ⟨front, leaf, _, _, inside⟩
    · exact plain
    · split at inside
      · exact absurd inside (components_ne_nil (by simp))
      · exact absurd rfl inside.1
  · intro plain dataDir
    exact .inl plain

/-- The downloader writes chunk `i` into the data directory, the chunk server reads it there, and the
applicator deletes it there. -/
structure StaysInside (dataDir fileId : String) (i : UInt32) : Prop where
  writes : ∀ cfg : DownloaderConfig, cfg.dataDir = dataDir → cfg.manifest.fileId = fileId →
    IsChild (cfg.path i).toList dataDir.toList
  reads : ∀ server : ChunkServer, server.dataDir = dataDir → server.manifest.fileId = fileId →
    IsChild (server.path i).toList dataDir.toList
  deletes : ∀ app : PatchApplicator, app.dataDir = dataDir → app.fileId = fileId →
    IsChild (app.chunkPath i).toList dataDir.toList

/-- All three use the path of the chunk file. -/
theorem staysInside_iff {dataDir fileId : String} {i : UInt32} :
    StaysInside dataDir fileId i ↔ KeepsInside dataDir.toList fileId.toList := by
  rw [← chunkPath_isChild_iff dataDir fileId i]
  constructor
  · intro stays
    exact stays.deletes ⟨dataDir, fileId⟩ rfl rfl
  · intro inside
    constructor
    · rintro cfg rfl rfl
      exact inside
    · rintro server rfl rfl
      exact inside
    · rintro app rfl rfl
      exact inside

/-- Chunk files stay in the data directory exactly for identifiers that keep them there; in every
directory, exactly for those without a separator. The tracker asks for neither: whatever parses as a
manifest with this identifier is admitted under every known policy. -/
theorem chunkFiles_stayInside_iff (fileId : String) :
    (∀ dataDir i, StaysInside dataDir fileId i ↔ KeepsInside dataDir.toList fileId.toList) ∧
    ((∀ dataDir i, StaysInside dataDir fileId i) ↔ '/' ∉ fileId.toList) ∧
    ∀ (server : Server) (manifest : Manifest) (bytes : List UInt8) (policyText : String) policy,
      manifest.fileId = fileId → server.manifestFromSlice bytes = .ok manifest →
      SchedulingPolicy.fromStr policyText = .ok policy → server.Admits bytes policyText manifest := by
  refine ⟨fun dataDir i => staysInside_iff, ?_, ?_⟩
  · rw [← keepsInside_forall_iff]
    constructor
    · intro stays dataDir
      exact staysInside_iff.mp (stays dataDir 0)
    · intro keeps dataDir i
      exact staysInside_iff.mpr (keeps dataDir)
  · intro server manifest bytes policyText policy _ parsed known
    exact Server.admits_of_parsed parsed known

/-- The manifest of the one-byte file `[1]`, with an identifier that leads out of the directory. -/
def escapingManifest : Manifest where
  fileId := "../x"
  version := "1"
  totalSize := 1
  chunkSize := 1
  chunkCount := 1
  chunkHashes := ["4bf5122f344554c53bde2ebb8cd2b7e3d1600ad631c385a5d7cce23c7785459a"]

/-- A server whose parser knows the encoding of one manifest. -/
def serverKnowing (manifest : Manifest) : Server where
  layouts := sampleServer.layouts
  manifestFromSlice bytes :=
    if bytes = manifest.serialise then .ok manifest
    else .error "expected value at line 1 column 1"

theorem serverKnowing_parses (manifest : Manifest) :
    (serverKnowing manifest).manifestFromSlice manifest.serialise = .ok manifest := by
  simp [serverKnowing]

/-- The tracker admits the manifest, and the file of its chunk is in the directory above. An absolute
identifier leaves out the data directory altogether. -/
theorem escaping_manifest_admitted :
    (serverKnowing escapingManifest).Admits escapingManifest.serialise "rarity-first"
        escapingManifest ∧
      ¬ StaysInside "/data" escapingManifest.fileId 0 ∧
      chunkPath "/data" escapingManifest.fileId 0 = "/data/../x.chunk.000000" ∧
      chunkPath "/data" "/etc/x" 0 = "/etc/x.chunk.000000" := by
  have parsed := serverKnowing_parses escapingManifest
  refine ⟨Server.admits_of_parsed parsed rfl, ?_, by decide, by decide⟩
  intro stays
  obtain ⟨name, child⟩ := stays.deletes ⟨"/data", "../x"⟩ rfl rfl
  have lengths := congrArg List.length child
  rw [List.length_append, List.length_singleton] at lengths
  exact absurd lengths (by decide)

end ModelDistribution
