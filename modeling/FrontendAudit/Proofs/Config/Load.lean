import FrontendAudit.Config.Load
import FrontendAudit.Proofs.Text.Integer
import FrontendAudit.Proofs.Text.Utf8
import FrontendAudit.Proofs.Validation

/-!
# How the loading of settings ends

Settings are read from one file (`Config.source?`), and then two numbers from the environment. For
each of these steps a relation says how it ends: `Config.Reads` for the file, `Config.Override` for
a variable and `Config.Loads` for the whole. Loading ends with settings or with a fault of the
configuration exactly when the file is text (`load_reports_iff`); bytes that are not get past the
faults that are foreseen (`undecodable_settings_escape`). The file is read as in `Json.parse?`:
without limits on depth and digits, and half of a surrogate pair that stands alone as U+FFFD.

Two numbers of the settings may come from three places (`Config.InForce`): from a variable of the
environment, from the one file that is read, or from nowhere, and then they are the usual ones. The
places go before each other in this order, so that one number is in force (`InForce.unique`); it is
the one that is loaded (`inForce_of_load`), and it is positive then, wherever it comes from.
-/

namespace FrontendAudit

open Disk (FileData Tree)
open Text (IsInteger isBlankText)

namespace Config

/-! ## Variables -/

/-- Whether a variable is not set, or set to nothing but blanks. -/
def Unset (host : Host) (setting : String) : Prop :=
  ∀ value, host.valueOf? setting = some value → isBlankText value.toList = true

/-- Whether a variable is set to something else, which it is then read from. -/
def IsSet (host : Host) (setting value : String) : Prop :=
  host.valueOf? setting = some value ∧ isBlankText value.toList = false

/-- What comes of a variable that may override a number. -/
inductive Override (host : Host) (setting : String) : Except ConfigFault (Option Nat) → Prop
  | unset (hunset : Unset host setting) : Override host setting (.ok none)
  | positive {value : String} {n : Nat} (hset : IsSet host setting value)
      (hn : IsInteger value.toList n) (hpositive : 1 ≤ n) : Override host setting (.ok (some n))
  | notInteger {value : String} (hset : IsSet host setting value)
      (hnot : ∀ n, ¬ IsInteger value.toList n) :
      Override host setting (.error (.notInteger setting value))
  | notPositive {value : String} {n : Int} (hset : IsSet host setting value)
      (hn : IsInteger value.toList n) (hsmall : n < 1) :
      Override host setting (.error (.notPositive setting n))

section

variable {host : Host} {setting value : String}

theorem IsSet.unique {value' : String} (h : IsSet host setting value)
    (h' : IsSet host setting value') :
    value = value' :=
  Option.some.inj (h.1.symm.trans h'.1)

theorem IsSet.not_unset (h : IsSet host setting value) : ¬ Unset host setting := by
  intro hunset
  cases h.2.symm.trans (hunset value h.1)

theorem override?_of_unset (h : Unset host setting) : override? host setting = .ok none := by
  unfold override?
  split
  · rfl
  · next hvalue => rw [if_pos (h _ hvalue)]

theorem override?_of_isSet (h : IsSet host setting value) : override? host setting =
    match Text.settingInt? value.toList with
    | none => .error (.notInteger setting value)
    | some n => if n < 1 then .error (.notPositive setting n) else .ok (some n.toNat) := by
  unfold override?
  rw [h.1]
  dsimp only
  exact if_neg (by rw [h.2]; exact Bool.false_ne_true)

theorem unset_or_isSet (host : Host) (setting : String) :
    Unset host setting ∨ ∃ value, IsSet host setting value := by
  cases hvalue : host.valueOf? setting with
  | none =>
      refine .inl fun value h => ?_
      rw [hvalue] at h
      cases h
  | some value =>
      cases hblank : isBlankText value.toList with
      | false => exact .inr ⟨value, hvalue, hblank⟩
      | true =>
          refine .inl fun value' h => ?_
          obtain rfl : value = value' := Option.some.inj (hvalue.symm.trans h)
          exact hblank

/-- Something comes of a variable, whatever it is set to. -/
theorem override_override? (host : Host) (setting : String) :
    Override host setting (override? host setting) := by
  rcases unset_or_isSet host setting with hunset | ⟨value, hset⟩
  · rw [override?_of_unset hunset]
    exact .unset hunset
  · rw [override?_of_isSet hset]
    cases hread : Text.settingInt? value.toList with
    | none =>
        refine .notInteger hset fun n hn => ?_
        rw [Text.settingInt?_eq_some_iff.mpr hn] at hread
        cases hread
    | some n =>
        have hn := Text.settingInt?_eq_some_iff.mp hread
        dsimp only
        split
        · next hsmall => exact .notPositive hset hn hsmall
        · next hlarge =>
            have hcast : (n.toNat : Int) = n := Int.toNat_of_nonneg (by omega)
            exact .positive hset (hcast ▸ hn) (by omega)

/-- One thing comes of a variable. -/
theorem override?_eq_iff {r : Except ConfigFault (Option Nat)} :
    override? host setting = r ↔ Override host setting r := by
  constructor
  · rintro rfl
    exact override_override? host setting
  · intro h
    cases h with
    | unset hunset => exact override?_of_unset hunset
    | positive hset hn hpositive =>
        rw [override?_of_isSet hset, Text.settingInt?_eq_some_iff.mpr hn]
        dsimp only
        rw [if_neg (by omega), Int.toNat_natCast]
    | @notInteger value hset hnot =>
        rw [override?_of_isSet hset]
        cases hread : Text.settingInt? value.toList with
        | none => rfl
        | some n => exact absurd (Text.settingInt?_eq_some_iff.mp hread) (hnot n)
    | notPositive hset hn hsmall =>
        rw [override?_of_isSet hset, Text.settingInt?_eq_some_iff.mpr hn]
        dsimp only
        rw [if_pos hsmall]

end

/-! ## The file -/

/-- The file with the settings of a project: its own, or else that of the current directory. -/
def source? (host : Host) (disk : Tree) (project : Path) : Option (Path × FileData) :=
  let own := (project.resolve host.cwd).child fileName
  match disk.file? (host.locate own) with
  | some data => some (own, data)
  | none => (disk.file? (host.locate (host.cwd.child fileName))).map (host.cwd.child fileName, ·)

/-- What the settings of a project are read to, before they are checked: the members of an object,
which has none if there is no file. -/
inductive Reads (host : Host) (disk : Tree) (project : Path) :
    Except LoadFault (List (String × Json)) → Prop
  | none (hsource : source? host disk project = none) : Reads host disk project (.ok [])
  | object {file : Path} {data : FileData} {text : List Char} {ms : List (String × Json)}
      (hsource : source? host disk project = some (file, data))
      (htext : data.readStrict? = some text) (hparse : Json.parse? text = some (.obj ms)) :
      Reads host disk project (.ok ms)
  | notObject {file : Path} {data : FileData} {text : List Char} {v : Json}
      (hsource : source? host disk project = some (file, data))
      (htext : data.readStrict? = some text) (hparse : Json.parse? text = some v)
      (hother : ∀ ms, v ≠ .obj ms) :
      Reads host disk project (.error (.config (.notObject file)))
  | unreadable {file : Path} {data : FileData} {text : List Char}
      (hsource : source? host disk project = some (file, data))
      (htext : data.readStrict? = some text) (hparse : Json.parse? text = Option.none) :
      Reads host disk project (.error (.config (.unreadable file)))
  | undecodable {file : Path} {data : FileData}
      (hsource : source? host disk project = some (file, data)) (hbytes : ∀ cs, ¬ data.Encodes cs) :
      Reads host disk project (.error .undecodable)

section

variable {host : Host} {disk : Tree} {project file : Path} {files : List Path} {data : FileData}

theorem readFirst_cons_of_none (h : disk.file? (host.locate file) = none) :
    readFirst host disk (file :: files) = readFirst host disk files := by
  rw [readFirst, h]

theorem readFirst_cons_of_some (h : disk.file? (host.locate file) = some data) :
    readFirst host disk (file :: files) = readFirst host disk [file] := by
  rw [readFirst, readFirst, h]

/-- Where both places are the same one, it is looked at once. -/
theorem readFirst_searchPaths (host : Host) (disk : Tree) (project : Path) :
    readFirst host disk (searchPaths host project) =
      readFirst host disk [(project.resolve host.cwd).child fileName, host.cwd.child fileName] := by
  have hdups : ∀ own other : Path,
      [own, other].eraseDups = if other = own then [own] else [own, other] := by
    intro own other
    by_cases hsame : other = own <;> simp [hsame, List.eraseDups_cons]
  rw [searchPaths, hdups]
  split
  · next hsame =>
      rw [hsame]
      cases hfile : disk.file? (host.locate ((project.resolve host.cwd).child fileName)) with
      | none =>
          rw [readFirst_cons_of_none hfile, readFirst_cons_of_none hfile,
            readFirst_cons_of_none hfile]
      | some data => exact (readFirst_cons_of_some hfile).symm
  · rfl

theorem readFirst_of_none (h : source? host disk project = none) :
    readFirst host disk (searchPaths host project) = .ok (.obj []) := by
  rw [readFirst_searchPaths]
  unfold source? at h
  dsimp only at h
  split at h
  · cases h
  · next hown =>
      rw [readFirst_cons_of_none hown, readFirst_cons_of_none (Option.map_eq_none_iff.mp h)]
      rfl

/-- Of two files only the first is read. -/
theorem readFirst_of_source (h : source? host disk project = some (file, data)) :
    readFirst host disk (searchPaths host project) = readFirst host disk [file] ∧
      disk.file? (host.locate file) = some data := by
  rw [readFirst_searchPaths]
  unfold source? at h
  dsimp only at h
  split at h
  · next own hown =>
      cases h
      exact ⟨readFirst_cons_of_some hown, hown⟩
  · next hown =>
      obtain ⟨other, hother, heq⟩ := Option.map_eq_some_iff.mp h
      cases heq
      exact ⟨readFirst_cons_of_none hown, hother⟩

theorem readFirst_of_reads {r : Except LoadFault (List (String × Json))}
    (h : Reads host disk project r) :
    readFirst host disk (searchPaths host project) = r.map .obj := by
  cases h with
  | none hsource => exact readFirst_of_none hsource
  | object hsource htext hparse =>
      obtain ⟨hread, hfile⟩ := readFirst_of_source hsource
      rw [hread, readFirst, hfile]
      simp only [htext, hparse]
      rfl
  | @notObject file data text v hsource htext hparse hother =>
      obtain ⟨hread, hfile⟩ := readFirst_of_source hsource
      rw [hread, readFirst, hfile]
      simp only [htext, hparse]
      cases v with
      | obj ms => exact absurd rfl (hother ms)
      | _ => rfl
  | unreadable hsource htext hparse =>
      obtain ⟨hread, hfile⟩ := readFirst_of_source hsource
      rw [hread, readFirst, hfile]
      simp only [htext, hparse]
      rfl
  | undecodable hsource hbytes =>
      obtain ⟨hread, hfile⟩ := readFirst_of_source hsource
      rw [hread, readFirst, hfile]
      simp only [FileData.readStrict?_eq_none_iff.mpr hbytes]
      rfl

/-- The settings are read to something, whatever the files hold. -/
theorem exists_reads (host : Host) (disk : Tree) (project : Path) :
    ∃ r, Reads host disk project r := by
  cases hsource : source? host disk project with
  | none => exact ⟨_, .none hsource⟩
  | some found =>
      obtain ⟨file, data⟩ := found
      cases htext : data.readStrict? with
      | none => exact ⟨_, .undecodable hsource (FileData.readStrict?_eq_none_iff.mp htext)⟩
      | some text =>
          cases hparse : Json.parse? text with
          | none => exact ⟨_, .unreadable hsource htext hparse⟩
          | some v =>
              cases v with
              | obj ms => exact ⟨_, .object hsource htext hparse⟩
              | _ => exact ⟨_, .notObject hsource htext hparse fun ms h => by cases h⟩

/-- They are read to one thing. -/
theorem Reads.unique {r r' : Except LoadFault (List (String × Json))}
    (h : Reads host disk project r) (h' : Reads host disk project r') : r = r' := by
  have heq := (readFirst_of_reads h).symm.trans (readFirst_of_reads h')
  cases r with
  | error fault =>
      cases r' with
      | error fault' => rw [Except.error.inj heq]
      | ok ms' => cases heq
  | ok ms =>
      cases r' with
      | error fault' => cases heq
      | ok ms' => rw [Json.obj.inj (Except.ok.inj heq)]

end

/-! ## The whole -/

/-- How the loading of settings ends: the file is read and checked, and then the variables, in this
order. -/
inductive Loads (host : Host) (disk : Tree) (project : Path) : Except LoadFault Config → Prop
  | unread {fault : LoadFault} (hread : Reads host disk project (.error fault)) :
      Loads host disk project (.error fault)
  | invalid {ms : List (String × Json)} {issues : List Issue}
      (hread : Reads host disk project (.ok ms)) (hcheck : check (.obj ms) = .bad issues) :
      Loads host disk project (.error (.config (.invalid issues)))
  | badBatch {ms : List (String × Json)} {c : Config} {fault : ConfigFault}
      (hread : Reads host disk project (.ok ms)) (hcheck : check (.obj ms) = .ok c)
      (hbatch : Override host batchVariable (.error fault)) :
      Loads host disk project (.error (.config fault))
  | badIssues {ms : List (String × Json)} {c : Config} {batch : Option Nat} {fault : ConfigFault}
      (hread : Reads host disk project (.ok ms)) (hcheck : check (.obj ms) = .ok c)
      (hbatch : Override host batchVariable (.ok batch))
      (hissues : Override host issuesVariable (.error fault)) :
      Loads host disk project (.error (.config fault))
  | loaded {ms : List (String × Json)} {c : Config} {batch issues : Option Nat}
      (hread : Reads host disk project (.ok ms)) (hcheck : check (.obj ms) = .ok c)
      (hbatch : Override host batchVariable (.ok batch))
      (hissues : Override host issuesVariable (.ok issues)) :
      Loads host disk project
        (.ok { c with batchSize := batch.getD c.batchSize, maxIssues := issues.getD c.maxIssues })

section

variable {host : Host} {disk : Tree} {project : Path}

theorem load_of_ok {ms : List (String × Json)} (hread : Reads host disk project (.ok ms)) :
    load host disk project = match check (.obj ms) with
      | .bad issues => .error (.config (.invalid issues))
      | .ok c => (overridden host c).mapError .config := by
  rw [load, readFirst_of_reads hread]
  rfl

theorem load_of_loads {r : Except LoadFault Config} (h : Loads host disk project r) :
    load host disk project = r := by
  cases h with
  | unread hread =>
      rw [load, readFirst_of_reads hread]
      rfl
  | invalid hread hcheck => rw [load_of_ok hread, hcheck]
  | badBatch hread hcheck hbatch =>
      rw [load_of_ok hread, hcheck]
      dsimp only
      rw [overridden, override?_eq_iff.mpr hbatch]
      rfl
  | badIssues hread hcheck hbatch hissues =>
      rw [load_of_ok hread, hcheck]
      dsimp only
      rw [overridden, override?_eq_iff.mpr hbatch, override?_eq_iff.mpr hissues]
      rfl
  | loaded hread hcheck hbatch hissues =>
      rw [load_of_ok hread, hcheck]
      dsimp only
      rw [overridden, override?_eq_iff.mpr hbatch, override?_eq_iff.mpr hissues]
      rfl

theorem exists_loads (host : Host) (disk : Tree) (project : Path) :
    ∃ r, Loads host disk project r := by
  obtain ⟨r, hread⟩ := exists_reads host disk project
  cases r with
  | error fault => exact ⟨_, .unread hread⟩
  | ok ms =>
      cases hcheck : check (.obj ms) with
      | bad issues => exact ⟨_, .invalid hread hcheck⟩
      | ok c =>
          have hbatch := override_override? host batchVariable
          cases hone : override? host batchVariable with
          | error fault => exact ⟨_, .badBatch hread hcheck (hone ▸ hbatch)⟩
          | ok batch =>
              have hissues := override_override? host issuesVariable
              cases htwo : override? host issuesVariable with
              | error fault => exact ⟨_, .badIssues hread hcheck (hone ▸ hbatch) (htwo ▸ hissues)⟩
              | ok issues => exact ⟨_, .loaded hread hcheck (hone ▸ hbatch) (htwo ▸ hissues)⟩

/-- Loading ends in one way, whatever the files and the variables hold. -/
theorem load_eq_iff {r : Except LoadFault Config} :
    load host disk project = r ↔ Loads host disk project r := by
  constructor
  · rintro rfl
    obtain ⟨r, h⟩ := exists_loads host disk project
    rwa [load_of_loads h]
  · exact load_of_loads

/-- Only bytes that are no text make an ending that is neither settings nor a fault of the
configuration. -/
theorem Loads.undecodable_iff :
    Loads host disk project (.error .undecodable) ↔
      ∃ file data, source? host disk project = some (file, data) ∧ ∀ cs, ¬ data.Encodes cs := by
  constructor
  · intro h
    cases h with
    | unread hread =>
        cases hread with
        | undecodable hsource hbytes => exact ⟨_, _, hsource, hbytes⟩
  · rintro ⟨file, data, hsource, hbytes⟩
    exact .unread (.undecodable hsource hbytes)

/-- Loading ends as the file and the variables say, and it ends with settings or a fault of the
configuration exactly when the file is text. -/
theorem load_reports_iff (host : Host) (disk : Tree) (project : Path) :
    (∀ r, load host disk project = r ↔ Loads host disk project r) ∧
      (((∃ c, load host disk project = .ok c) ∨
        ∃ fault, load host disk project = .error (.config fault)) ↔
        ∀ file data, source? host disk project = some (file, data) → ∃ cs, data.Encodes cs) := by
  refine ⟨fun r => load_eq_iff, ?_⟩
  constructor
  · intro hends file data hsource
    by_contra hbytes
    have hload :=
      load_of_loads (Loads.undecodable_iff.mpr ⟨file, data, hsource, not_exists.mp hbytes⟩)
    rcases hends with ⟨c, hc⟩ | ⟨fault, hfault⟩
    · cases hload.symm.trans hc
    · cases hload.symm.trans hfault
  · intro htext
    cases hload : load host disk project with
    | ok c => exact .inl ⟨c, rfl⟩
    | error fault =>
        cases fault with
        | config fault => exact .inr ⟨fault, rfl⟩
        | undecodable =>
            obtain ⟨file, data, hsource, hbytes⟩ := Loads.undecodable_iff.mp (load_eq_iff.mp hload)
            obtain ⟨cs, hcs⟩ := htext file data hsource
            exact absurd hcs (hbytes cs)

/-- A host on which nothing is set. -/
def bareHost : Host where
  cwd := .absolute ["work"]
  environment := []
  now := "now"
  runId := "1"
  rulesDir := .absolute ["rules"]
  cloneDir := .absolute ["clone"]

/-- A project whose file with settings is a byte that begins no character. -/
def undecodableProject : Tree := .dir [("app", .dir [(fileName, .file (.bytes [0xff]))])]

/-- Such a file is not reported as a fault of the configuration. -/
theorem undecodable_settings_escape :
    load bareHost undecodableProject (.absolute ["app"]) = .error .undecodable := by
  have hsource : source? bareHost undecodableProject (.absolute ["app"]) =
      some ((Path.absolute ["app"]).child fileName, .bytes [0xff]) := rfl
  have hbytes : (FileData.bytes [0xff]).readStrict? = none := by decide +kernel
  exact load_of_loads
    (Loads.undecodable_iff.mpr ⟨_, _, hsource, FileData.readStrict?_eq_none_iff.mp hbytes⟩)

end

end Config

/-! ## Where a number comes from -/

theorem Text.IsInteger.unique {s : List Char} {n m : Int} (hn : IsInteger s n)
    (hm : IsInteger s m) : n = m :=
  Option.some.inj ((settingInt?_eq_some_iff.mpr hn).symm.trans (settingInt?_eq_some_iff.mpr hm))

namespace Config

/-- A number of the settings: the variable that overrides it, its names in the file, and its usual
value. -/
structure Limit where
  setting : String
  names : List String
  usual : Nat

/-- How many files are scanned at once. -/
def Limit.batchSize : Limit := ⟨batchVariable, ["batchSize", "batch_size"], 5⟩

/-- How many findings are kept. -/
def Limit.maxIssues : Limit := ⟨issuesVariable, ["maxIssues", "max_issues"], 50000⟩

/-- A number is in force: the integer of the variable if that is set to more than blanks, else the
member of the file that is read, else the usual one. -/
inductive InForce (l : Limit) (host : Host) (disk : Tree) (project : Path) : Nat → Prop
  | environment {value : String} {n : Nat} (hset : IsSet host l.setting value)
      (hn : IsInteger value.toList n) : InForce l host disk project n
  | file {ms : List (String × Json)} {name : String} {v : Json} {n : Nat}
      (hunset : Unset host l.setting) (hread : Reads host disk project (.ok ms))
      (hnamed : Checked.firstNamed? l.names ms = some (name, v)) (hn : Checked.integer v = .ok n) :
      InForce l host disk project n
  | usual {ms : List (String × Json)} (hunset : Unset host l.setting)
      (hread : Reads host disk project (.ok ms)) (hnamed : Checked.firstNamed? l.names ms = none) :
      InForce l host disk project l.usual

section

variable {l : Limit} {host : Host} {disk : Tree} {project : Path} {n m : Nat}

theorem InForce.unique (hn : InForce l host disk project n)
    (hm : InForce l host disk project m) : n = m := by
  cases hn with
  | environment hset hn =>
      cases hm with
      | environment hset' hm =>
          obtain rfl := hset.unique hset'
          exact Int.ofNat.inj (hn.unique hm)
      | file hunset => exact absurd hunset hset.not_unset
      | usual hunset => exact absurd hunset hset.not_unset
  | file hunset hread hnamed hn =>
      cases hm with
      | environment hset => exact absurd hunset hset.not_unset
      | file _ hread' hnamed' hm =>
          obtain rfl := Except.ok.inj (hread.unique hread')
          obtain ⟨rfl, rfl⟩ := Prod.mk.inj (Option.some.inj (hnamed.symm.trans hnamed'))
          exact Int.ofNat.inj (Checked.ok.inj (hn.symm.trans hm))
      | usual _ hread' hnamed' =>
          obtain rfl := Except.ok.inj (hread.unique hread')
          cases hnamed.symm.trans hnamed'
  | usual hunset hread hnamed =>
      cases hm with
      | environment hset => exact absurd hunset hset.not_unset
      | file _ hread' hnamed' =>
          obtain rfl := Except.ok.inj (hread.unique hread')
          cases hnamed.symm.trans hnamed'
      | usual => rfl

/-- The member of the file, or the usual number. -/
theorem Reads.inForce {ms : List (String × Json)} (hread : Reads host disk project (.ok ms))
    (hfield : Checked.field l.names (some l.usual) Checked.positive ms = .ok n)
    (hunset : Unset host l.setting) :
    InForce l host disk project n := by
  rcases Checked.field_eq_ok_iff.mp hfield with ⟨hnamed, rfl⟩ | ⟨name, v, hnamed, hpositive⟩
  · exact .usual hunset hread hnamed
  · exact .file hunset hread hnamed (Checked.positive_eq_ok.mp hpositive).1

theorem one_le_of_field (husual : 1 ≤ l.usual) {ms : List (String × Json)}
    (hfield : Checked.field l.names (some l.usual) Checked.positive ms = .ok n) : 1 ≤ n := by
  rcases Checked.field_eq_ok_iff.mp hfield with ⟨-, rfl⟩ | ⟨_, _, -, hpositive⟩
  · exact husual
  · exact (Checked.positive_eq_ok.mp hpositive).2

/-- What a variable leaves of the number of the file is in force, and positive if the usual number
is. -/
theorem Override.inForce {ms : List (String × Json)} {override? : Option Nat} (husual : 1 ≤ l.usual)
    (hread : Reads host disk project (.ok ms))
    (hfield : Checked.field l.names (some l.usual) Checked.positive ms = .ok n)
    (h : Override host l.setting (.ok override?)) :
    InForce l host disk project (override?.getD n) ∧ 1 ≤ override?.getD n := by
  cases h with
  | unset hunset => exact ⟨hread.inForce hfield hunset, one_le_of_field husual hfield⟩
  | positive hset hn hpositive => exact ⟨.environment hset hn, hpositive⟩

theorem fields_of_check {ms : List (String × Json)} {c : Config} (h : check (.obj ms) = .ok c) :
    Checked.field Limit.batchSize.names (some Limit.batchSize.usual) Checked.positive ms =
      .ok c.batchSize ∧
      Checked.field Limit.maxIssues.names (some Limit.maxIssues.usual) Checked.positive ms =
        .ok c.maxIssues := by
  simp only [check, Checked.record, Checked.seq_eq_ok, Checked.map_eq_ok] at h
  -- of the eleven fields only the sixth and the seventh matter
  obtain ⟨_, _,
      ⟨_, _, ⟨_, _, ⟨_, _, ⟨_, _, ⟨_, _, ⟨_, _, ⟨_, _, ⟨_, _, ⟨_, _, ⟨_, -, rfl⟩, -, rfl⟩, -, rfl⟩,
    -, rfl⟩, -, rfl⟩, hbatchSize, rfl⟩, hmaxIssues, rfl⟩, -, rfl⟩, -, rfl⟩, -, rfl⟩, -, rfl⟩ := h
  exact ⟨hbatchSize, hmaxIssues⟩

/-- The numbers of the settings that are loaded are in force, and positive. -/
theorem inForce_of_load {c : Config} (h : load host disk project = .ok c) :
    (InForce .batchSize host disk project c.batchSize ∧ 1 ≤ c.batchSize) ∧
      InForce .maxIssues host disk project c.maxIssues ∧ 1 ≤ c.maxIssues := by
  cases load_eq_iff.mp h with
  | loaded hread hcheck hbatch hissues =>
      obtain ⟨hbatchSize, hmaxIssues⟩ := fields_of_check hcheck
      exact ⟨Override.inForce (l := .batchSize) (by decide) hread hbatchSize hbatch,
        Override.inForce (l := .maxIssues) (by decide) hread hmaxIssues hissues⟩

end

end Config

end FrontendAudit
