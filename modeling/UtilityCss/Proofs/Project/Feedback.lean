import UtilityCss.Proofs.Files.Written
import UtilityCss.Proofs.Project.Listing
import UtilityCss.Proofs.Project.Mirror

/-! Whether a build reads its own output file. A build reads the style sheets that its pass opens
and the sources that its crawl chooses. An output file that is neither makes no difference to it.
One that is chosen is scanned like any other source. -/
namespace UtilityCss.Project

open FileTree (SameBut Spares)
open Path (joinText placeIn waypoints)

/-- The pass of a build opens the style sheet at a place: it is the root file, or it is imported by
the root file or by another one that is opened. -/
def OpensSheet (tree : FileTree) (options : Options) (place : List String) : Prop :=
  ∃ theme generated, Theme.compile options.overrides = .ok theme ∧ theme.rules = .ok generated ∧
    ∃ f ∈ (passOf tree options generated).1.files, placeIn tree.home f = place

/-- A file at a place is chosen by the crawl of a build: it stands below one of the directories, its
path is wanted, and nothing on the way to it is ignored. -/
def Options.Picks (options : Options) (home place : List String) : Prop :=
  ∃ d ∈ options.directories, ∃ names, names ≠ [] ∧ placeIn home d ++ names = place ∧
    options.selection.wanted.finds (names.foldl joinText d) = true ∧
      ∀ passed ∈ waypoints d names, options.selection.ignores passed = false

variable {tree tree' : FileTree} {options : Options} {s : Selection} {out : List String}
  {directory : String} {directories names : List String} {content : Content} {b : Build}

section Crawl

theorem hasFile_iff {n : Node} {stamp : Nat} (there : tree.node? directory = .ok n) :
    tree.HasFile directory names content stamp ↔ names ≠ [] ∧
      tree.root.descend (placeIn tree.home directory ++ names) = .ok (.file content stamp) := by
  have below := FileTree.descend_of_node? there
  rw [Node.descend_append, below]
  constructor
  · rintro ⟨some, m, found, file⟩
    cases there.symm.trans found
    exact ⟨some, file⟩
  · rintro ⟨some, file⟩
    exact ⟨some, n, there, file⟩

/-- A crawl that comes to its end opens its first directory and comes to the end of the others. -/
theorem opened_of_crawl_cons (sound : tree.Sound)
    (complete : (crawl tree s (directory :: directories)).2 = none) :
    (∃ entries stamp, tree.node? directory = .ok (.dir entries stamp)) ∧
      (∀ names, ¬ Shut tree s directory names) ∧ (crawl tree s directories).2 = none := by
  rw [crawl] at complete
  cases there : tree.node? directory with
  | error problem =>
    rw [there] at complete
    cases complete
  | ok n =>
    rw [there] at complete
    cases n with
    | file => cases complete
    | dir entries stamp =>
      obtain ⟨found, -, openable, told⟩ | ⟨names, found, -, -, -, told⟩ :=
        crawls_directory (s := s) there sound
      · simp only [told] at complete
        exact ⟨⟨entries, stamp, rfl⟩, openable, complete⟩
      · simp only [told] at complete
        cases complete

/-- A crawl that comes to its end has opened all directories on its way. -/
theorem opened_of_crawl (sound : tree.Sound)
    (complete : (crawl tree s directories).2 = none) {d : String} (inside : d ∈ directories) :
    (∃ entries stamp, tree.node? d = .ok (.dir entries stamp)) ∧
      ∀ names, ¬ Shut tree s d names := by
  induction directories with
  | nil => cases inside
  | cons first rest ih =>
    obtain ⟨there, openable, complete⟩ := opened_of_crawl_cons sound complete
    rcases List.mem_cons.1 inside with rfl | later
    · exact ⟨there, openable⟩
    · exact ih complete later

/-- A crawl lists a directory that it can open and goes on to the others. -/
theorem exists_crawl_cons (sound : tree.Sound) {entries : List (String × Node)} {stamp : Nat}
    (there : tree.node? directory = .ok (.dir entries stamp))
    (openable : ∀ names, ¬ Shut tree s directory names) (directories : List String) :
    ∃ found, IsListing tree s directory (fun _ => True) found ∧
      crawl tree s (directory :: directories) =
        (Selection.joinedPaths directory found ++ (crawl tree s directories).1,
          (crawl tree s directories).2) := by
  obtain ⟨found, listing, -, told⟩ | ⟨names, -, shut, -⟩ :=
    crawls_directory (s := s) there sound
  · exact ⟨found, listing, by simp only [crawl, there, told]⟩
  · exact absurd shut (openable names)

variable (home : tree'.home = tree.home) (spares : Spares out tree tree')
include home spares

/-- Where the place in which two trees differ is not picked, the same files are chosen. -/
theorem chosen_congr {entries : List (String × Node)} {stamp : Nat}
    (there : tree.node? directory = .ok (.dir entries stamp))
    (inside : directory ∈ options.directories) (unpicked : ¬ options.Picks tree.home out) :
    Chosen tree' options.selection directory names content ↔
      Chosen tree options.selection directory names content := by
  obtain ⟨_, _, there'⟩ := FileTree.exists_dir_of_node? home spares.dir there
  simp only [Chosen, hasFile_iff there, hasFile_iff there', home]
  refine and_congr_left fun ⟨wanted, clear⟩ => exists_congr fun stamp => ?_
  refine and_congr_right fun some => ?_
  refine spares.file_iff _ (fun same => unpicked ?_) content stamp
  exact ⟨directory, inside, names, some, same, wanted, clear⟩

/-- A directory stays shut where no directory is missing. -/
theorem Shut.spared (h : Shut tree s directory names) : Shut tree' s directory names := by
  obtain ⟨⟨⟨n, entries, stamp, there, below⟩, clear⟩, long⟩ := h
  have found := FileTree.descend_of_node? there
  have inside : tree.root.descend (placeIn tree.home directory ++ names) =
      .ok (.dir entries stamp) := by
    rw [Node.descend_append, found]
    exact below
  obtain ⟨es, st, inside'⟩ := spares.dir _ ⟨entries, stamp, inside⟩
  cases n with
  | file => cases names <;> cases below
  | dir =>
    obtain ⟨es', st', there'⟩ := FileTree.exists_dir_of_node? home spares.dir there
    refine ⟨⟨⟨_, es, st, there', ?_⟩, clear⟩, long⟩
    have found' := FileTree.descend_of_node? there'
    rw [home] at found'
    rw [Node.descend_append, found'] at inside'
    exact inside'

/-- A crawl that comes to its end finds the same files in a tree that differs at a place only that
is not picked, as long as no directory is shut there. -/
theorem crawl_spared (sound : tree.Sound) (sound' : tree'.Sound)
    (within : directories ⊆ options.directories) (unpicked : ¬ options.Picks tree.home out)
    (openable : ∀ d ∈ directories, ∀ names, ¬ Shut tree' options.selection d names)
    (complete : (crawl tree options.selection directories).2 = none) :
    crawl tree' options.selection directories = crawl tree options.selection directories := by
  induction directories with
  | nil => rfl
  | cons d rest ih =>
    obtain ⟨here, within⟩ := List.cons_subset.1 within
    obtain ⟨first, openable⟩ := List.forall_mem_cons.1 openable
    obtain ⟨⟨entries, stamp, there⟩, opened, complete⟩ := opened_of_crawl_cons sound complete
    obtain ⟨es, st, there'⟩ := FileTree.exists_dir_of_node? home spares.dir there
    obtain ⟨found, listing, told⟩ := exists_crawl_cons sound there opened rest
    obtain ⟨found', listing', told'⟩ := exists_crawl_cons sound' there' first rest
    have same : found' = found := by
      refine listing'.unique ⟨listing.ascending, ?_⟩
      intro names content
      rw [listing.mem_iff, chosen_congr home spares there here unpicked]
    rw [told, told', same, ih within openable complete]

end Crawl

/-- A reading that comes to its end has read everything that was found. -/
theorem readFound_eq_ok {fault : Option FileFault} {found : List (String × Content)}
    {texts : List String} (h : readFound fault found = (texts, none)) :
    fault = none ∧ texts = found.map (·.2.source) := by
  induction found generalizing texts with
  | nil =>
    cases h
    exact ⟨rfl, rfl⟩
  | cons source rest ih =>
    obtain ⟨path, content⟩ := source
    rw [readFound] at h
    dsimp only at h
    split at h
    · cases h
    · cases later : readFound fault rest with
      | mk more failed =>
        rw [later] at h
        cases h
        obtain ⟨none, same⟩ := ih later
        exact ⟨none, by rw [same, List.map_cons]⟩

theorem crawlTexts_eq_ok {texts : List String} (h : crawlTexts tree s directories = (texts, none)) :
    (crawl tree s directories).2 = none ∧
      texts = (crawl tree s directories).1.map (·.2.source) :=
  readFound_eq_ok h

section Pass

variable {generated : RuleTable} {pass : Sheet.Pass} {css : String}

/-- A style sheet that can be read is read in the same way where its file is spared. -/
theorem readSheet_spared {p : Path} (home : tree'.home = tree.home)
    (spares : Spares out tree tree') (normal : p.Normal)
    (other : placeIn tree.home p.text ≠ out) {text : String} (h : tree.readSheet p = .ok text) :
    tree'.readSheet p = .ok text := by
  obtain ⟨-, content, stamp, there⟩ := FileTree.exists_file_of_readSheet normal h
  have there' := (spares.file_iff _ other content stamp).2 there
  exact (FileTree.readSheet_congr normal home there there').trans h

/-- A pass goes the same way where the files that it opens are spared. -/
theorem passOf_spared (home : tree'.home = tree.home) (spares : Spares out tree tree')
    (apart : ∀ f ∈ pass.files, placeIn tree.home f ≠ out)
    (went : passOf tree options generated = (pass, .ok css)) :
    passOf tree' options generated = (pass, .ok css) := by
  have start := Path.normal_ofText options.cssFile
  refine Sheet.load_congr _ start went fun f listed p normal text => ?_
  subst text
  obtain ⟨q, normal', same, css, read⟩ :=
    (Sheet.load_opened start went _ listed).resolve_left List.not_mem_nil
  obtain rfl := normal'.eq_of_text_eq normal same
  exact (readSheet_spared home spares normal (apart _ listed) read).trans read.symm

/-- The style sheets of one tree at a place, and those of another tree everywhere else. -/
private def sheetsAt (out : List String) (tree' tree : FileTree) : Sheet.SheetFiles where
  read p := if placeIn tree.home p.text = out then tree'.readSheet p else tree.readSheet p
  paths := tree.sheets.paths ++ tree'.sheets.paths
  mem_paths {p css} h := by
    split at h
    · exact List.mem_append_right _ (tree'.sheets.mem_paths h)
    · exact List.mem_append_left _ (tree.sheets.mem_paths h)

/-- A pass that opens nothing at the place where two trees differ succeeds in the one as it does in
the other. -/
theorem passOf_sameBut (same : SameBut out tree tree')
    (apart : ∀ f ∈ (passOf tree options generated).1.files, placeIn tree.home f ≠ out) :
    passOf tree' options generated = (pass, .ok css) ↔
      passOf tree options generated = (pass, .ok css) := by
  have start := Path.normal_ofText options.cssFile
  constructor
  · intro went
    -- Both passes are that over the sheets of `tree'` at `out` and of `tree` elsewhere.
    let between := Sheet.run (sheetsAt out tree' tree) (Path.ofText options.cssFile)
      (options.base.getD Sheet.baseText) generated
    have first : between = passOf tree options generated := by
      cases whole : passOf tree options generated with
      | mk after result =>
        rw [whole] at apart
        refine Sheet.load_congr _ start whole fun f listed p normal text => ?_
        subst text
        exact if_neg (apart _ listed)
    have second : between = passOf tree' options generated := by
      rw [went]
      refine Sheet.load_congr _ start went fun f listed p normal text => ?_
      subst text
      obtain ⟨q, normal', named, css, read⟩ :=
        (Sheet.load_opened start went _ listed).resolve_left List.not_mem_nil
      obtain rfl := normal'.eq_of_text_eq normal named
      by_cases here : placeIn tree.home q.text = out
      · exact if_pos here
      · have back := readSheet_spared same.home.symm same.symm.spares normal
          (by rw [same.home]; exact here) read
        exact (if_neg here).trans (back.trans read.symm)
    rw [← first, second, went]
  · intro went
    rw [went] at apart
    exact passOf_spared same.home same.spares apart went

end Pass

/-- A build is made again where one file differs that it does not read and directories are added, as
long as none of those is shut. -/
theorem make_spared (sound : tree.Sound) (sound' : tree'.Sound) (home : tree'.home = tree.home)
    (spares : Spares out tree tree') (apart : ¬ OpensSheet tree options out)
    (unpicked : ¬ options.Picks tree.home out)
    (openable : ∀ d ∈ options.directories, ∀ names, ¬ Shut tree' options.selection d names)
    (made : Build.make tree options = .ok b) : Build.make tree' options = .ok b := by
  obtain ⟨theme, generated, pass, css, sources, compiled, rules, went, crawled, rfl⟩ :=
    make_eq_ok_iff.1 made
  have went' : passOf tree' options generated = (pass, .ok css) := by
    refine passOf_spared home spares (fun f listed here => ?_) went
    exact apart ⟨theme, generated, compiled, rules, f, by rw [went]; exact listed, here⟩
  have crawled' : crawlTexts tree' options.selection options.directories = (sources, none) := by
    have complete := (crawlTexts_eq_ok crawled).1
    rw [crawlTexts, crawl_spared home spares sound sound' (List.Subset.refl _) unpicked openable
      complete]
    exact crawled
  exact make_eq_ok_iff.2
    ⟨theme, generated, pass, css, sources, compiled, rules, went', crawled', rfl⟩

/-- No directory is made where only a file differs, so none can be shut. -/
theorem make_eq_ok_of_sameBut (sound : tree.Sound) (sound' : tree'.Sound)
    (same : SameBut out tree tree') (apart : ¬ OpensSheet tree options out)
    (unpicked : ¬ options.Picks tree.home out) (made : Build.make tree options = .ok b) :
    Build.make tree' options = .ok b := by
  obtain ⟨-, -, -, -, sources, -, -, -, crawled, -⟩ := make_eq_ok_iff.1 made
  refine make_spared sound sound' same.home same.spares apart unpicked ?_ made
  intro d inside names shut
  have complete := (crawlTexts_eq_ok crawled).1
  exact (opened_of_crawl sound complete inside).2 names
    (shut.spared same.home.symm same.symm.spares)

/-- A place in which two trees differ is opened by neither pass or by both, if the second one
succeeds. -/
theorem apart_sameBut (same : SameBut out tree tree') (apart : ¬ OpensSheet tree options out)
    (made : Build.make tree' options = .ok b) : ¬ OpensSheet tree' options out := by
  rintro ⟨theme, generated, compiled, rules, f, listed, here⟩
  obtain ⟨_, _, pass, css, _, compiled', rules', went, -⟩ := make_eq_ok_iff.1 made
  obtain rfl := Except.ok.inj (compiled.symm.trans compiled')
  obtain rfl := Except.ok.inj (rules.symm.trans rules')
  have went' := (passOf_sameBut same fun f listed here =>
    apart ⟨theme, generated, compiled, rules, f, listed, here⟩).1 went
  rw [went] at listed
  rw [same.home] at here
  exact apart ⟨theme, generated, compiled, rules, f, by rw [went']; exact listed, here⟩

theorem make_sameBut_iff (sound : tree.Sound) (sound' : tree'.Sound) (same : SameBut out tree tree')
    (apart : ¬ OpensSheet tree options out) (unpicked : ¬ options.Picks tree.home out) :
    Build.make tree' options = .ok b ↔ Build.make tree options = .ok b := by
  constructor
  · intro made
    have apart' := apart_sameBut same apart made
    rw [← same.home] at unpicked
    exact make_eq_ok_of_sameBut sound' sound same.symm apart' unpicked made
  · exact make_eq_ok_of_sameBut sound sound' same apart unpicked

theorem write_eq_ok_iff {outfile : String} {written : FileTree}
    (named : options.outfile.filter (!·.isEmpty) = some outfile) :
    Build.write tree options = (written, .ok b) ↔ Build.make tree options = .ok b ∧
      tree.writeOutput outfile (.text b.text) = (written, none) := by
  rw [Build.write, named]
  dsimp only
  cases made : Build.make tree options with
  | error fault => simp
  | ok b' =>
    dsimp only
    constructor
    · intro h
      split at h
      · next output =>
        cases h
        exact ⟨rfl, output⟩
      · cases h
    · rintro ⟨same, output⟩
      cases same
      rw [output]

/-- Writing the output again writes the same text, if the build does not read it and the directories
that were made for it can be opened. -/
theorem write_again {outfile : String} {written : FileTree}
    (named : options.outfile.filter (!·.isEmpty) = some outfile) (sound : tree.Sound)
    (apart : ¬ OpensSheet tree options (placeIn tree.home outfile))
    (unpicked : ¬ options.Picks tree.home (placeIn tree.home outfile))
    (wrote : Build.write tree options = (written, .ok b))
    (openable : ∀ d ∈ options.directories, ∀ names, ¬ Shut written options.selection d names) :
    ∃ again, Build.write written options = (again, .ok b) ∧
      written.read outfile = .ok (.text b.text) ∧ again.read outfile = .ok (.text b.text) := by
  obtain ⟨made, output⟩ := (write_eq_ok_iff named).1 wrote
  obtain ⟨later, spares⟩ := FileTree.writeOutput_eq_ok sound output
  have made' := make_spared sound later.sound later.home spares apart unpicked openable made
  have first := FileTree.read_of_writeOutput output
  obtain ⟨again, output'⟩ := FileTree.exists_writeOutput_of_read first (.text b.text)
  exact ⟨again, (write_eq_ok_iff named).2 ⟨made', output'⟩, first,
    FileTree.read_of_writeOutput output'⟩

/-- A picked file is one of the sources of every build that is made. -/
theorem scanned_of_picked {stamp : Nat} (sound : tree.Sound)
    (picked : options.Picks tree.home out)
    (there : tree.root.descend out = .ok (.file content stamp))
    (made : Build.make tree options = .ok b) :
    content.source ∈ (crawlTexts tree options.selection options.directories).1 := by
  obtain ⟨-, -, -, -, sources, -, -, -, crawled, -⟩ := make_eq_ok_iff.1 made
  obtain ⟨complete, texts⟩ := crawlTexts_eq_ok crawled
  obtain ⟨d, inside, names, some, rfl, wanted, clear⟩ := picked
  obtain ⟨⟨entries, st, found⟩, -⟩ := opened_of_crawl sound complete inside
  obtain ⟨-, n, found', file⟩ := (hasFile_iff found).2 ⟨some, there⟩
  cases found.symm.trans found'
  have stop := (Selection.mem_stopsAt (s := options.selection)
    (sound.below (FileTree.descend_of_node? found))).2 ⟨names, stamp, file, rfl, wanted, clear⟩
  have met := (mem_crawl complete).2 ⟨d, inside, entries, st, found, stop⟩
  rw [crawled, texts]
  exact List.mem_map_of_mem (f := fun e : String × Content => e.2.source) met

/-- A build whose pass does not open its output file reads it only where its crawl picks it. If it
is not picked, the build is the same whatever the file holds and whether or not it is there, and
writing it a second time writes the same text, unless a directory that was made for it has too long
a path for the crawl. If it is picked, its text is scanned whenever it is there. -/
theorem outfile_unread_or_scanned {outfile : String}
    (named : options.outfile.filter (!·.isEmpty) = some outfile) (sound : tree.Sound)
    (apart : ¬ OpensSheet tree options (placeIn tree.home outfile)) :
    (¬ options.Picks tree.home (placeIn tree.home outfile) →
      (∀ tree', tree'.Sound → SameBut (placeIn tree.home outfile) tree tree' →
        ∀ b, Build.make tree' options = .ok b ↔ Build.make tree options = .ok b) ∧
      ∀ written b, Build.write tree options = (written, .ok b) →
        (∀ d ∈ options.directories, ∀ names, ¬ Shut written options.selection d names) →
          ∃ again, Build.write written options = (again, .ok b) ∧
            written.read outfile = .ok (.text b.text) ∧
            again.read outfile = .ok (.text b.text)) ∧
    (options.Picks tree.home (placeIn tree.home outfile) →
      ∀ tree' b content stamp, tree'.Sound → SameBut (placeIn tree.home outfile) tree tree' →
        tree'.root.descend (placeIn tree.home outfile) = .ok (.file content stamp) →
        Build.make tree' options = .ok b →
          content.source ∈ (crawlTexts tree' options.selection options.directories).1) := by
  refine ⟨fun unpicked => ⟨fun tree' sound' same b => ?_, fun written b wrote openable => ?_⟩, ?_⟩
  · exact make_sameBut_iff sound sound' same apart unpicked
  · exact write_again named sound apart unpicked wrote openable
  · intro picked tree' b content stamp sound' same there made
    rw [← same.home] at picked there
    exact scanned_of_picked sound' picked there made

section Page

open Session (page pageOptions)

/-- The page writes over its own source. -/
private def saved : Options := { pageOptions with outfile := some "src/a.html" }

private theorem apart_page {options : Options} (sheet : options.cssFile = pageOptions.cssFile)
    (base : options.base = pageOptions.base) (other : out ≠ ["index.css"]) :
    ¬ OpensSheet page options out := by
  rintro ⟨theme, generated, -, -, f, listed, rfl⟩
  have same : passOf page options generated = passOf page pageOptions generated := by
    rw [passOf, sheet, base]
    rfl
  rw [same, Session.passOf_page] at listed
  obtain rfl := List.mem_singleton.1 listed
  exact other (by decide)

/-- The page without its source. -/
private def bare : FileTree :=
  (FileTree.changeAll {} [
    .write "index.css" (.text "@layer utilities\x7b.xx\x7bcolor:red;\x7d\x7d"),
    .makeDirectory "src"]).1

private theorem put_bare : bare.put "src/a.html" (.text "<p xx>") = .ok page := rfl

private theorem sound_page : page.Sound := by
  rw [page]
  exact FileTree.sound_changeAll _

private theorem sound_bare : bare.Sound := by
  rw [bare]
  exact FileTree.sound_changeAll _

private theorem named_page : pageOptions.outfile.filter (!·.isEmpty) = some "o.css" := by decide

private theorem named_saved : saved.outfile.filter (!·.isEmpty) = some "src/a.html" := by decide

private theorem unpicked_page : ¬ pageOptions.Picks page.home (placeIn page.home "o.css") := by
  rintro ⟨d, inside, names, -, same, -⟩
  obtain rfl := List.mem_singleton.1 inside
  have first : placeIn page.home "src" = ["src"] := by decide
  have place : placeIn page.home "o.css" = ["o.css"] := by decide
  rw [first, place] at same
  exact absurd (List.head_eq_of_cons_eq same) (by decide)

private theorem picked_page : saved.Picks page.home (placeIn page.home "src/a.html") :=
  ⟨"src", List.mem_singleton_self _, ["a.html"], List.cons_ne_nil _ _, by decide, by decide,
    fun _ _ => rfl⟩

private theorem write_page_any :
    ((Build.write page pageOptions).2.toOption.any fun _ =>
      (crawl (Build.write page pageOptions).1 pageOptions.selection
        pageOptions.directories).2.isNone) = true := by
  decide +kernel

private theorem exists_write_page : ∃ written b,
    Build.write page pageOptions = (written, .ok b) ∧
      (crawl written pageOptions.selection pageOptions.directories).2 = none := by
  obtain ⟨b, wrote, complete⟩ := exists_ok_of_any write_page_any
  cases whole : Build.write page pageOptions with
  | mk written result =>
    rw [whole] at wrote complete
    obtain rfl : result = .ok b := wrote
    exact ⟨written, b, rfl, Option.isNone_iff_eq_none.1 complete⟩

/-- Where the text goes makes no difference to what is built. -/
private theorem make_saved (made : Build.make page pageOptions = .ok b) :
    Build.make page saved = .ok { b with options := saved } := by
  obtain ⟨theme, generated, pass, css, sources, compiled, rules, went, crawled, rfl⟩ :=
    make_eq_ok_iff.1 made
  exact make_eq_ok_iff.2
    ⟨theme, generated, pass, css, sources, compiled, rules, went, crawled, rfl⟩

/-- The page with its output file beside it, and the page that is its own output file. -/
theorem outfile_unread_or_scanned_page :
    page.Sound ∧
      (¬ OpensSheet page pageOptions (placeIn page.home "o.css") ∧
        ¬ pageOptions.Picks page.home (placeIn page.home "o.css") ∧
        (∃ written b again, Build.write page pageOptions = (written, .ok b) ∧
          Build.write written pageOptions = (again, .ok b) ∧
          again.read "o.css" = .ok (.text b.text)) ∧
        ∃ other, page.put "o.css" (.text "<p yy>") = .ok other ∧
          ∀ b, Build.make other pageOptions = .ok b ↔ Build.make page pageOptions = .ok b) ∧
      ¬ OpensSheet page saved (placeIn page.home "src/a.html") ∧
      saved.Picks page.home (placeIn page.home "src/a.html") ∧
      "<p xx>" ∈ (crawlTexts page saved.selection saved.directories).1 := by
  have apart : ¬ OpensSheet page pageOptions (placeIn page.home "o.css") :=
    apart_page rfl rfl (by decide)
  have apartSaved : ¬ OpensSheet page saved (placeIn page.home "src/a.html") :=
    apart_page rfl rfl (by decide)
  obtain ⟨unread, -⟩ := outfile_unread_or_scanned named_page sound_page apart
  obtain ⟨-, scanned⟩ := outfile_unread_or_scanned named_saved sound_page apartSaved
  obtain ⟨same, again⟩ := unread unpicked_page
  refine ⟨sound_page, ⟨apart, unpicked_page, ?_, ?_⟩, apartSaved, picked_page, ?_⟩
  · obtain ⟨written, b, wrote, complete⟩ := exists_write_page
    have later := FileTree.writeOutput_eq_ok sound_page ((write_eq_ok_iff named_page).1 wrote).2
    obtain ⟨final, wroteAgain, -, read⟩ := again written b wrote fun d inside =>
      (opened_of_crawl later.1.sound complete inside).2
    exact ⟨written, b, final, wrote, wroteAgain, read⟩
  · obtain ⟨other, put⟩ : ∃ other, page.put "o.css" (.text "<p yy>") = .ok other := ⟨_, rfl⟩
    exact ⟨other, put, same other (FileTree.later_put sound_page put).sound
      (FileTree.sameBut_of_put put)⟩
  · obtain ⟨_, b, wrote, -⟩ := exists_write_page
    have made := ((write_eq_ok_iff named_page).1 wrote).1
    have there : page.root.descend (placeIn page.home "src/a.html") =
      .ok (.file (.text "<p xx>") 3) := rfl
    exact scanned picked_page page _ (.text "<p xx>") 3 sound_page
      ⟨rfl, .refl, fun _ => id⟩ there (make_saved made)

private theorem crawlTexts_bare :
    crawlTexts bare saved.selection saved.directories = ([], none) := by
  have sources : (crawlTexts bare saved.selection saved.directories).1 = [] := by
    decide +kernel
  have fault : (crawlTexts bare saved.selection saved.directories).2 = none := by
    decide +kernel
  exact Prod.ext sources fault

private theorem text_of_empty {layer : Layer} (none : layer.utilities = []) :
    layer.text = "@layer utilities\x7b\x7d" := by
  have blocks : layer.blocks = [] := by
    have merged : Utility.merge [] = [] := rfl
    simp [Layer.blocks, none, merged]
  have buckets : (Utility.bucketOrder layer.breakpoints).filterMap
      (Utility.bucketText layer.breakpoints (Utility.bucketLines [] layer.blocks)) = [] := by
    rw [blocks]
    exact List.filterMap_eq_nil_iff.2 fun _ _ => rfl
  rw [Layer.text_eq, buckets]
  rfl

/-- A page that is its own output file. While it is not there, its class is not written. -/
theorem make_ne_of_scanned : ∃ b b', page.Sound ∧ bare.Sound ∧
    SameBut (placeIn page.home "src/a.html") page bare ∧
    saved.outfile.filter (!·.isEmpty) = some "src/a.html" ∧
    ¬ OpensSheet page saved (placeIn page.home "src/a.html") ∧
    Build.make page saved = .ok b ∧ Build.make bare saved = .ok b' ∧ b.text ≠ b'.text := by
  have apart : ¬ OpensSheet page saved (placeIn page.home "src/a.html") :=
    apart_page rfl rfl (by decide)
  have same : SameBut (placeIn page.home "src/a.html") page bare :=
    (FileTree.sameBut_of_put put_bare).symm
  obtain ⟨_, b, wrote, -⟩ := exists_write_page
  have made := ((write_eq_ok_iff named_page).1 wrote).1
  have shown := Session.writes_page made
  have madeSaved := make_saved made
  obtain ⟨theme, generated, pass, css, sources, compiled, rules, went, -, rfl⟩ :=
    make_eq_ok_iff.1 made
  have went' : passOf bare saved generated = (pass, .ok css) :=
    (passOf_sameBut same fun f listed here =>
      apart ⟨theme, generated, compiled, rules, f, listed, here⟩).2 went
  refine ⟨_, _, sound_page, sound_bare, same, named_saved, apart, madeSaved, make_eq_ok_iff.2
    ⟨theme, generated, pass, css, [], compiled, rules, went', crawlTexts_bare, rfl⟩, ?_⟩
  intro equal
  have empty := ((String.append_right_inj css).1 equal).trans (text_of_empty rfl)
  obtain ⟨selectors, front, behind, -, text⟩ := shown.text_eq
  have written : 'c' ∈ "@layer utilities\x7b\x7d".toList := by
    rw [← empty]
    exact text ▸ by simp
  exact absurd written (by decide)

end Page

end UtilityCss.Project
