import SmithyKotlin.Proofs.Files.Place
import SmithyKotlin.Proofs.Files.Writes
import SmithyKotlin.Proofs.Rendering.Closure
import SmithyKotlin.Rendering.Generation

/-!
# What generating leaves

* `Generation.Leaves`: the tree has the files of the rendering and the manifest, each at a place of its own below
  the output, and is otherwise the tree from before with more directories; the report and the manifest list the
  files in the order of the ids of their shapes.
* `Generation.writable_of_ofModel`: the files of a rendering have different paths, none of which needs to be changed
  for the manifest (`SourceFile.IsPlain`).
* `Generation.wrote_writeSources`: writing them one by one leaves all of them.
* `Generation.toDirectory_leaves`: a model that cannot be rendered leaves the tree alone, and where generating
  succeeds the tree is as `Leaves` says.

What is left when writing itself fails is not described here, only that it lies below the output
(`Proofs/Rendering/Confinement`).
-/

namespace SmithyKotlin

variable {model : Model} {settings : Settings}

/-! ## Paths of files -/

namespace SourceFile

variable {file : SourceFile} {shape : Shape}

/-- The class of a structure or union has a name of letters and digits when the shape has. -/
theorem isAlphanum_of_mem_symbolName {symbol : Symbol} (htype : shape.type = .struct ∨ shape.type = .union)
    (hname : Naming.IsIdentifier shape.id.name)
    (h : (SymbolProvider.kotlin settings).shapeSymbol model shape = .ok symbol) {c : Char}
    (hc : c ∈ symbol.name.toList) : c.isAlphanum = true := by
  obtain ⟨type, hof, rfl⟩ := map_eq_ok_iff.mp h
  rw [KotlinType.ofShape_of_scalar? (Shape.scalar?_of_declares htype)] at hof
  cases hof
  split at hc
  · have hunit : "Unit".toList.all Char.isAlphanum = true := by decide
    exact List.all_eq_true.mp hunit c hc
  · have hlist : (Naming.pascalCase shape.id.name).toList = Naming.pascal shape.id.name.toList :=
      String.toList_ofList
    exact hname.isAlphanum_of_mem_pascal (hlist ▸ hc)

/-- A file is that of a structure or union of the model, also where the model has it under another id. -/
theorem exists_shape_of_emission {emission : Emission}
    (h : SourceFile.emission model (SymbolProvider.kotlin settings) settings shape = .ok emission) :
    ∃ found, model.get? shape.id = some found ∧ (found.type = .struct ∨ found.type = .union) ∧
      (SymbolProvider.kotlin settings).shapeSymbol model found = .ok emission.symbol := by
  rw [SourceFile.emission] at h
  split at h
  · obtain ⟨declaration, hplan, rfl⟩ := map_eq_ok_iff.mp h
    obtain ⟨found, hfound, _⟩ := bind_eq_ok_iff.mp hplan
    have hget := Model.find_eq_ok_iff.mp hfound
    have htype := UnionDeclaration.type_of_plan hget hplan
    exact ⟨found, hget, .inr htype, (UnionDeclaration.symbol_of_plan hget htype hplan).2⟩
  · obtain ⟨declaration, hplan, rfl⟩ := map_eq_ok_iff.mp h
    obtain ⟨found, hfound, _⟩ := bind_eq_ok_iff.mp hplan
    have hget := Model.find_eq_ok_iff.mp hfound
    have htype := StructureDeclaration.type_of_plan hget hplan
    obtain ⟨_, _, _, hsymbol, rfl⟩ := (StructureDeclaration.plan_eq_ok_iff hget htype).mp hplan
    exact ⟨found, hget, .inl htype, hsymbol⟩
  · cases h

/-- Where the shapes of a model are named by identifiers, a file is called by letters and digits. -/
theorem exists_typeName (hnames : ∀ found ∈ model.shapes.values, Naming.IsIdentifier found.id.name)
    (h : SourceFile.render model (SymbolProvider.kotlin settings) settings shape = .ok file) :
    file.shape = shape.id ∧ ∃ typeName, file.path = pathOf settings.modelPackage typeName ∧
      ∀ c ∈ typeName.toList, c.isAlphanum = true := by
  obtain ⟨emission, hemission, rfl⟩ := render_eq_ok_iff.mp h
  obtain ⟨found, hget, htype, hsymbol⟩ := exists_shape_of_emission hemission
  have hmem : found ∈ model.shapes.values :=
    List.mem_map.mpr ⟨_, SortedMap.get?_eq_some_iff.mp hget, rfl⟩
  exact ⟨rfl, emission.symbol.name, rfl, fun _ =>
    isAlphanum_of_mem_symbolName htype (hnames found hmem) hsymbol⟩

/-- What holds of the path of a file: it leads on from the output and not to the manifest, and there are no
backslashes in it. -/
structure IsPlain (path : String) : Prop where
  leadsOn : Path.LeadsOn path
  apart : Path.components path ≠ Path.components Manifest.fileName
  spelled : '\\' ∉ path.toList

theorem isPlain_pathOf (hpackage : Settings.isPackage settings.packageName = true) {typeName : String}
    (hname : ∀ c ∈ typeName.toList, c.isAlphanum = true) :
    IsPlain (pathOf settings.modelPackage typeName) := by
  have hslash : '/' ∉ typeName.toList := fun hmem => absurd (hname _ hmem) (by decide)
  have hsteps := steps_pathOf hpackage hslash
  refine ⟨⟨isAbsolute_pathOf hpackage hslash, dots_not_mem_steps_pathOf hpackage hslash, ?_⟩, ?_, ?_⟩
  · rw [hsteps]
    exact List.append_ne_nil_of_right_ne_nil _ (List.cons_ne_nil _ _)
  · have hmanifest : Path.components Manifest.fileName = ["codegen-manifest.json"] := by decide +kernel
    rw [Path.components, hsteps, hmanifest]
    intro heq
    exact absurd (List.cons.inj heq).1 (by decide)
  · have hmodel : '\\' ∉ settings.modelPackage.toList := by
      rw [Settings.modelPackage, String.toList_append, List.mem_append, not_or]
      exact ⟨Settings.backslash_not_mem_packageName hpackage, by decide⟩
    intro hmem
    rcases Path.mem_join hmem with heq | hmem | hmem
    · exact absurd heq (by decide)
    · rcases Path.mem_join hmem with heq | hmem | hmem
      · exact absurd heq (by decide)
      · exact absurd hmem (by decide)
      · rw [String.toList_map] at hmem
        obtain ⟨c, hc, hslash⟩ := List.mem_map.mp hmem
        split at hslash
        · exact absurd hslash (by decide)
        · exact hmodel (hslash ▸ hc)
    · rw [String.toList_append, List.mem_append] at hmem
      rcases hmem with hmem | hmem
      · exact absurd (hname _ hmem) (by decide)
      · exact absurd hmem (by decide)

theorem IsPlain.map_eq {path : String} (h : IsPlain path) :
    (path.map fun c => if c = '\\' then '/' else c) = path := by
  have hsame : path.toList.map (fun c => if c = '\\' then '/' else c) = path.toList.map id :=
    List.map_congr_left fun c hc => if_neg fun (heq : c = '\\') => h.spelled (heq ▸ hc)
  rw [← String.toList_inj, String.toList_map, hsame, List.map_id]

end SourceFile

namespace Generation

variable {α β : Type} {before after tree : FileTree} {directory : List String}
  {output path contents : String}

/-! ## Steps that succeed -/

theorem andThen_eq_ok {first : Writing α} {second : α → Writing β} {value : β}
    (h : andThen first second tree = (.ok value, after)) :
    ∃ found middle, first tree = (.ok found, middle) ∧ second found middle = (.ok value, after) := by
  rw [andThen] at h
  split at h
  · rename_i found middle hfirst
    exact ⟨found, middle, hfirst, h⟩
  · cases h

theorem attempt_eq_ok {operation : FileTree → Except OsError FileTree} {fail : OsError → CodegenError}
    {value : Unit} (h : attempt operation fail tree = (.ok value, after)) : operation tree = .ok after := by
  rw [attempt] at h
  split at h
  · rename_i hok
    cases h
    exact hok
  · cases h

theorem wrote_makeDirectories {fail : OsError → CodegenError} {value : Unit}
    (h : attempt (makeDirectories path) fail tree = (.ok value, after)) : tree.Wrote [] after := by
  obtain ⟨steps, _, h⟩ := bind_eq_ok_iff.mp (attempt_eq_ok h)
  exact FileTree.wrote_makeDirectories h

theorem manifest_of_write {rendering : Rendering} {report : Report}
    (h : write settings output rendering before = (.ok report, after)) :
    report.manifest = Manifest.ofRendering settings rendering := by
  obtain ⟨_, _, _, h⟩ := andThen_eq_ok h
  obtain ⟨_, _, _, h⟩ := andThen_eq_ok h
  obtain ⟨_, _, _, h⟩ := andThen_eq_ok h
  cases h
  rfl

/-! ## Files below the output -/

/-- The entry of a tree that holds a file below the place of the output. -/
def entry (directory : List String) (path contents : String) : String × String :=
  (Path.ofComponents (directory ++ Path.components path), contents)

/-- A file is written below the place of the output. -/
theorem wrote_writeFile {fail : OsError → CodegenError} {value : Unit} (hpath : Path.LeadsOn path)
    (h : attempt (·.writeFile (Path.join output path) contents) fail tree = (.ok value, after)) :
    ∃ directory, tree.enter [] (Path.steps output) = .ok directory ∧
      tree.Wrote [entry directory path contents] after ∧
      after.LeadsTo (Path.join output path) (directory ++ Path.components path) := by
  obtain ⟨place, hleads, hfree, rfl⟩ := FileTree.exists_place_of_writeFile (attempt_eq_ok h)
  obtain ⟨directory, henter, rfl⟩ := hleads.exists_below (Path.steps_join hpath.relative) hpath.steps_ne
    ⟨hpath.descends, Path.root_not_mem_steps hpath.relative⟩
  have hwrote : tree.Wrote [entry directory path contents] _ := FileTree.wrote_put hfree
  exact ⟨directory, henter, hwrote, hleads.of_wrote hwrote hfree⟩

theorem wrote_writeSource {file : SourceFile} {value : Unit} (hpath : Path.LeadsOn file.path)
    (h : writeSource output file tree = (.ok value, after)) :
    ∃ directory, after.enter [] (Path.steps output) = .ok directory ∧
      tree.Wrote [entry directory file.path file.contents] after ∧
      after.LeadsTo (sourcePath output file) (directory ++ Path.components file.path) := by
  rw [writeSource] at h
  obtain ⟨_, middle, hparent, h⟩ := andThen_eq_ok h
  rw [sourcePath] at h ⊢
  obtain ⟨directory, henter, hwrote, hleads⟩ := wrote_writeFile hpath h
  exact ⟨directory, FileTree.enter_of_keeps hwrote.directories henter,
    (wrote_makeDirectories hparent).trans hwrote (fun _ hmem => absurd hmem List.not_mem_nil), hleads⟩

/-- Files with different paths have different entries. -/
theorem key_entry_ne {other : String} (hdirectory : Path.IsPlace directory) (hpath : Path.LeadsOn path)
    (hother : Path.LeadsOn other) (hne : Path.components path ≠ Path.components other)
    (contents found : String) :
    (entry directory path contents).1 ≠ (entry directory other found).1 := by
  intro heq
  have hplace := (Path.ofComponents_inj (hpath.isPlace_append hdirectory)
    (hother.isPlace_append hdirectory)).mp heq
  exact hne (List.append_cancel_left hplace)

/-- The entries for the files of a rendering. -/
def entries (directory : List String) (files : List SourceFile) : List (String × String) :=
  files.map fun file => entry directory file.path file.contents

theorem mem_keys_entries {files : List SourceFile} {key : String}
    (h : key ∈ (entries directory files).map Prod.fst) :
    ∃ file ∈ files, (entry directory file.path file.contents).1 = key := by
  simpa [entries] using h

/-- A run of writes leaves all files that it wrote, wherever the output leads in the end. -/
theorem wrote_writeSources {files : List SourceFile} {value : Unit}
    (hpaths : ∀ file ∈ files, Path.LeadsOn file.path)
    (hdistinct : files.Pairwise fun a b => Path.components a.path ≠ Path.components b.path)
    (h : writeSources output files tree = (.ok value, after))
    (henter : after.enter [] (Path.steps output) = .ok directory) :
    tree.Wrote (entries directory files) after ∧ ∀ file ∈ files,
      after.LeadsTo (sourcePath output file) (directory ++ Path.components file.path) := by
  induction files generalizing tree with
  | nil =>
    cases h
    exact ⟨.refl _, fun file hmem => absurd hmem List.not_mem_nil⟩
  | cons file rest ih =>
    obtain ⟨hpath, hrest⟩ := List.forall_mem_cons.mp hpaths
    obtain ⟨hapart, hdistinct⟩ := List.pairwise_cons.mp hdistinct
    obtain ⟨_, middle, hfile, h⟩ := andThen_eq_ok h
    obtain ⟨hwrote, hleads⟩ := ih hrest hdistinct h
    obtain ⟨found, hfound, hfirst, hfirstLeads⟩ := wrote_writeSource hpath hfile
    -- the output leads to the same place before and after the rest is written
    have hsame := FileTree.enter_of_keeps hwrote.directories hfound
    rw [henter, Except.ok.injEq] at hsame
    subst hsame
    have hdisjoint : (entry directory file.path file.contents).1 ∉
        (entries directory rest).map Prod.fst := by
      intro hmem
      obtain ⟨other, hother, heq⟩ := mem_keys_entries hmem
      exact key_entry_ne (FileTree.isPlace_of_path henter) hpath (hrest other hother)
        (hapart other hother) _ _ heq.symm
    refine ⟨hfirst.trans hwrote fun key hkey => ?_, List.forall_mem_cons.mpr ⟨?_, hleads⟩⟩
    · rw [List.map_singleton, List.mem_singleton] at hkey
      exact hkey ▸ hdisjoint
    · have hthere := hfirst.there _ _ (List.mem_singleton_self _)
      refine hfirstLeads.of_wrote hwrote fun hfree => ?_
      rw [hthere] at hfree
      cases hfree

/-! ## The files of a rendering -/

/-- What is known of the files of a rendering before any is written. -/
structure Writable (rendering : Rendering) : Prop where
  plain : ∀ file ∈ rendering.files.values, SourceFile.IsPlain file.path
  distinct : rendering.files.values.Pairwise fun a b => Path.components a.path ≠ Path.components b.path
  keyed : rendering.files.values.map (·.shape.text) = rendering.files.keys

theorem writable_of_ofModel (hnames : ∀ shape ∈ model.shapes.values, Naming.IsIdentifier shape.id.name)
    (hpackage : Settings.isPackage settings.packageName = true) {rendering : Rendering}
    (h : Rendering.ofModel model settings = .ok rendering) : Writable rendering := by
  have hfile : ∀ found ∈ rendering.files.entries, found.2.shape.text = found.1 ∧
      SourceFile.IsPlain found.2.path ∧ (Rendering.collect ((Rendering.targets model settings).map
        fun shape => (shape.id, SourceFile.render model (SymbolProvider.kotlin settings) settings shape))).Owns
          found.1 found.2.path := by
    rintro ⟨key, file⟩ hmem
    obtain ⟨hresult, howns⟩ := Rendering.of_files_get?_merge h (SortedMap.get?_eq_some_iff.mpr hmem)
    obtain ⟨shape, _, hresult⟩ := List.mem_map.mp hresult
    rw [Prod.mk.injEq] at hresult
    obtain ⟨hshape, typeName, hpath, hname⟩ := SourceFile.exists_typeName hnames hresult.2
    refine ⟨?_, ?_, howns⟩
    · rw [hshape, hresult.1]
    · show SourceFile.IsPlain file.path
      rw [hpath]
      exact SourceFile.isPlain_pathOf hpackage hname
  refine ⟨?_, ?_, ?_⟩
  · intro file hmem
    obtain ⟨found, hfound, rfl⟩ := List.mem_map.mp hmem
    exact (hfile found hfound).2.1
  · refine List.pairwise_map.mpr (rendering.files.ascending.imp_of_mem ?_)
    intro a b ha hb hlt heq
    have howns := (hfile a ha).2.2.of_same (beq_iff_eq.mpr heq)
    rw [howns.unique (hfile b hb).2.2] at hlt
    exact String.lt_irrefl _ hlt
  · rw [SortedMap.values, SortedMap.keys, List.map_map]
    exact List.map_congr_left fun found hmem => (hfile found hmem).1

/-! ## Runs -/

/-- What a run leaves that succeeds.  The tree has the files of the rendering and the manifest below the place of
the output and is otherwise the one from before with more directories; a reader finds them whole; and report and
manifest list the paths of the files, each once, in the order of the ids of their shapes. -/
structure Leaves (output : String) (rendering : Rendering) (report : Report) (before after : FileTree) :
    Prop where
  tree : ∃ directory, after.enter [] (Path.steps output) = .ok directory ∧
    ((entries directory rendering.files.values ++
      [entry directory Manifest.fileName report.manifest.text]).map Prod.fst).Nodup ∧
    before.Wrote (entries directory rendering.files.values ++
      [entry directory Manifest.fileName report.manifest.text]) after
  sources : ∀ file ∈ rendering.files.values,
    after.readFile (Path.join output file.path) = .ok file.contents
  manifest : after.readFile (Path.join output Manifest.fileName) = .ok report.manifest.text
  written : report.written = rendering.files.values.map fun file => Path.join output file.path
  listed : report.manifest.files = rendering.files.values.map (·.path)
  once : report.written.Nodup ∧ report.manifest.files.Nodup
  ordered : (rendering.files.values.map (·.shape.text)).Pairwise (· < ·)

theorem leadsOn_manifest : Path.LeadsOn Manifest.fileName :=
  ⟨by decide +kernel, by decide +kernel, by decide +kernel⟩

/-- The files and the manifest have entries of their own. -/
theorem nodup_keys_entries {rendering : Rendering} (hwritable : Writable rendering)
    (hdirectory : Path.IsPlace directory) (text : String) :
    ((entries directory rendering.files.values ++ [entry directory Manifest.fileName text]).map
      Prod.fst).Nodup := by
  rw [List.map_append, entries, List.map_map, List.map_singleton, List.nodup_append, List.Nodup,
    List.pairwise_map]
  refine ⟨?_, List.nodup_singleton _, ?_⟩
  · refine hwritable.distinct.imp_of_mem fun ha hb hne => ?_
    exact key_entry_ne hdirectory (hwritable.plain _ ha).leadsOn (hwritable.plain _ hb).leadsOn hne _ _
  · intro key hkey last hlast
    obtain ⟨file, hmem, rfl⟩ := List.mem_map.mp hkey
    rw [List.mem_singleton.mp hlast]
    have hplain := hwritable.plain file hmem
    exact key_entry_ne hdirectory hplain.leadsOn leadsOn_manifest hplain.apart _ _

theorem leaves_write {rendering : Rendering} {report : Report} (hwritable : Writable rendering)
    (h : write settings output rendering before = (.ok report, after)) :
    Leaves output rendering report before after := by
  rw [write] at h
  obtain ⟨_, made, hmade, h⟩ := andThen_eq_ok h
  obtain ⟨_, filled, hfilled, h⟩ := andThen_eq_ok h
  obtain ⟨_, last, hlast, h⟩ := andThen_eq_ok h
  cases h
  have hleadsOn : ∀ file ∈ rendering.files.values, Path.LeadsOn file.path :=
    fun file hmem => (hwritable.plain file hmem).leadsOn
  obtain ⟨directory, henter, hmanifest, hmanifestLeads⟩ := wrote_writeFile leadsOn_manifest hlast
  obtain ⟨hsources, hsourcesLead⟩ := wrote_writeSources hleadsOn hwritable.distinct hfilled henter
  have hnodup := nodup_keys_entries hwritable (FileTree.isPlace_of_path henter)
    (Manifest.ofRendering settings rendering).text
  have hdisjoint := (List.nodup_append.mp (List.map_append ▸ hnodup)).2.2
  have hwrote := ((wrote_makeDirectories hmade).trans hsources
    (fun _ hmem => absurd hmem List.not_mem_nil)).trans hmanifest
    (fun key hkey hmem => hdisjoint key hkey key hmem rfl)
  have hlisted : (Manifest.ofRendering settings rendering).files =
      rendering.files.values.map (·.path) :=
    List.map_congr_left fun file hmem => (hwritable.plain file hmem).map_eq
  refine ⟨⟨directory, FileTree.enter_of_keeps hmanifest.directories henter, hnodup, hwrote⟩, ?_, ?_, rfl,
    hlisted, ⟨?_, ?_⟩, ?_⟩
  · intro file hmem
    have hentry : entry directory file.path file.contents ∈ entries directory rendering.files.values :=
      List.mem_map_of_mem hmem
    have hleads := (hsourcesLead file hmem).of_wrote hmanifest fun hfree => by
      rw [hsources.there _ _ hentry] at hfree
      cases hfree
    exact hleads.readFile_eq (hwrote.there _ _ (List.mem_append_left _ hentry))
  · exact hmanifestLeads.readFile_eq (hwrote.there _ _ (List.mem_append_right _ (List.mem_singleton_self _)))
  · refine List.pairwise_map.mpr (hwritable.distinct.imp_of_mem ?_)
    intro a b ha hb hne heq
    have hjoin : Path.join output a.path = Path.join output b.path := heq
    have hcomponents := congrArg Path.components hjoin
    rw [Path.components_join (hleadsOn a ha).relative, Path.components_join (hleadsOn b hb).relative]
      at hcomponents
    exact hne (List.append_cancel_left hcomponents)
  · rw [hlisted]
    exact List.pairwise_map.mpr (hwritable.distinct.imp fun hne heq => hne (congrArg _ heq))
  · rw [hwritable.keyed, SortedMap.keys]
    exact List.pairwise_map.mpr rendering.files.ascending

/-- Whatever stands in the file tree: where rendering fails, generating fails in the same way and leaves the tree as
it was; where generating succeeds, it has written the files of the rendering and the manifest, and nothing else. -/
theorem toDirectory_leaves (model : Model) (settings : Settings) (output : String) (before : FileTree)
    (hnames : ∀ shape ∈ model.shapes.values, Naming.IsIdentifier shape.id.name)
    (hcheck : settings.check = .ok ()) :
    (∀ error, Rendering.ofModel model settings = .error error →
      toDirectory model settings output before = (.error error, before)) ∧
    ∀ report after, toDirectory model settings output before = (.ok report, after) →
      ∃ rendering, Rendering.ofModel model settings = .ok rendering ∧
        Leaves output rendering report before after := by
  refine ⟨fun error herror => ?_, fun report after h => ?_⟩
  · rw [toDirectory, herror]
  · rw [toDirectory] at h
    split at h
    · rename_i rendering hrender
      have hwritable := writable_of_ofModel hnames (Settings.isPackage_of_check hcheck) hrender
      exact ⟨rendering, hrender, leaves_write hwritable h⟩
    · cases h

/-- A structure and a union that were generated before. -/
def probes : Document where
  version := "2.0"
  shapes := ⟨[("com.example#probe_state", ⟨.group .struct {}, {}⟩),
    ("com.example#Alarm", ⟨.group .union ⟨[("code", ⟨"smithy.api#Integer", {}⟩)], by decide⟩, {}⟩)],
    by decide⟩
  metadata := {}

def probeSettings : Settings := { packageName := "com.example", runtimeVersion := "1.0.0" }

/-- An output with an old manifest and a file of another kind. -/
def used : FileTree :=
  ((({} : FileTree).put ["out"] .directory).put ["out", "codegen-manifest.json"] (.file "old")).put
    ["out", "README.md"] (.file "notes")

theorem toDirectory_leaves_probes :
    ∃ model rendering report after, probes.toModel = .ok model ∧
      (∀ shape ∈ model.shapes.values, Naming.IsIdentifier shape.id.name) ∧ probeSettings.check = .ok () ∧
      toDirectory model probeSettings "out" used = (.ok report, after) ∧
      rendering.files.keys = ["com.example#Alarm", "com.example#probe_state"] ∧
      after.get? "out/README.md" = some (.file "notes") ∧
      Leaves "out" rendering report used after := by
  have hcheck : probeSettings.check = .ok () := by decide +kernel
  have hseen : (probes.toModel.toOption.map fun model =>
      (decide (∀ shape ∈ model.shapes.values, Naming.IsIdentifier shape.id.name),
        (Rendering.ofModel model probeSettings).toOption.map (·.files.keys),
        (toDirectory model probeSettings "out" used).1.toOption.map (·.written.length),
        (toDirectory model probeSettings "out" used).2.get? "out/README.md")) =
      some (true, some ["com.example#Alarm", "com.example#probe_state"], some 2,
        some (.file "notes")) := by
    decide +kernel
  obtain ⟨model, hmodel, hseen⟩ := map_toOption_eq_some_iff.mp hseen
  simp only [Prod.mk.injEq, decide_eq_true_eq] at hseen
  obtain ⟨hnames, hkeys, hwritten, hkept⟩ := hseen
  obtain ⟨report, hreport, _⟩ := map_toOption_eq_some_iff.mp hwritten
  have hrun : toDirectory model probeSettings "out" used =
      (.ok report, (toDirectory model probeSettings "out" used).2) := Prod.ext hreport rfl
  obtain ⟨rendering, hrender, hleaves⟩ :=
    (toDirectory_leaves model probeSettings "out" used hnames hcheck).2 report _ hrun
  rw [hrender] at hkeys
  exact ⟨model, rendering, report, _, hmodel, hnames, hcheck, hrun, Option.some.inj hkeys, hkept, hleaves⟩

end Generation

end SmithyKotlin
