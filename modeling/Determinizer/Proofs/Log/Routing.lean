import Determinizer.CommandLine.Session
import Determinizer.Proofs.Log.Journal

/-! # Records go where the latest setup says

A log is set up any number of times, and records are logged in between. Each record that the latest
setup lets pass is written once to the console if the setup asks for that, and once to the log file
of the setup if it has one, behind what stands there; it reaches no file of an earlier setup. This is
said of records that have room in their log file, so that none is backed up on the way. There is one
exception: where the latest setup asks for neither output, warnings and what is above them
still come to the console. So the console holds what the setups ask for exactly if no such record is
logged under a setup without outputs.
-/

namespace Determinizer.Log

open File (Location Tree)
open File.Tree (ChangesOnly)

/-- What is asked of a log: its least level, a path for a log file, of which an empty one does not
count, and whether the console is wanted. -/
structure Request where
  threshold : Level
  file : Option String
  console : Bool
  deriving DecidableEq

/-- What is done with a log: it is set up, or a message is logged through the logger of a name. -/
inductive Action where
  | setUp (request : Request)
  | log (name : String) (level : Level) (message : String) (stamp : Stamp)

namespace Request

def setup (request : Request) : Setup :=
  ⟨request.threshold.toText, CommandLine.nonempty request.file, request.console⟩

/-- The location of the log file that is asked for. -/
def location? (request : Request) (current : Location) : Option Location :=
  request.setup.location? current

/-- Neither the console nor a file is asked for. -/
def isMute (request : Request) : Bool :=
  !request.console && (CommandLine.nonempty request.file).isNone

end Request

/-- A record, and what the latest setup before it asked for, if there was one. -/
structure Delivery where
  latest : Option Request
  record : Record

namespace Delivery

/-- The latest setup asks for the record on the console. -/
def isShown (delivery : Delivery) : Bool :=
  delivery.latest.any fun request => request.console ∧ request.threshold ≤ delivery.record.level

/-- The latest setup asks for the record in the file at a location. -/
def isFiled (current location : Location) (delivery : Delivery) : Bool :=
  delivery.latest.any fun request =>
    request.location? current = some location ∧ request.threshold ≤ delivery.record.level

/-- The record is a warning or above and no output is asked for by the latest setup, which lets it
pass. Before any setup every warning is of this kind. -/
def isStray (delivery : Delivery) : Bool :=
  (delivery.latest.all fun request =>
    request.isMute ∧ request.threshold ≤ delivery.record.level) ∧
    Level.warning ≤ delivery.record.level

/-- What comes to the console. -/
def consoleText (delivery : Delivery) : String :=
  if delivery.isShown then delivery.record.consoleLine
  else if delivery.isStray then delivery.record.bareLine
  else ""

/-- What comes to the file at a location. -/
def fileText (current location : Location) (delivery : Delivery) : String :=
  if delivery.isFiled current location then delivery.record.fileLine else ""

end Delivery

/-- The records of some actions, each with the latest request before it. -/
def deliveries (latest : Option Request) : List Action → List Delivery
  | [] => []
  | .setUp request :: rest => deliveries (some request) rest
  | .log name level message stamp :: rest =>
    ⟨latest, ⟨level, loggerNamed name, message, stamp⟩⟩ :: deliveries latest rest

/-- The locations of the log files that are asked for. -/
def logFiles (current : Location) : List Action → List Location
  | [] => []
  | .setUp request :: rest => (request.location? current).toList ++ logFiles current rest
  | .log .. :: rest => logFiles current rest

/-- The outputs that the latest setup asks for. -/
def sinksFor (current : Location) : Option Request → Sinks
  | none => .unset
  | some request => ⟨request.threshold, request.console, request.location? current⟩

theorem Level.ofThreshold?_toText (level : Level) : ofThreshold? level.toText = some level := by
  cases level <;> rfl

section SetUp

variable {files after opened : Tree} {location : Location} {path : String} {request : Request}
  {sinks : Sinks}

/-- A setup that succeeds uses the outputs that were asked for and changes no contents. -/
theorem eq_sinksFor_of_start (plain : File.Path.IsPlain files.current)
    (started : request.setup.start files = (after, .ok sinks)) :
    sinks = sinksFor files.current (some request) ∧
      ∀ location, after.contentsAt location = files.contentsAt location := by
  have effect := request.setup.effect_start plain
  rw [started] at effect
  refine ⟨?_, effect.contents_eq⟩
  have file_eq := effect.file_eq sinks rfl
  have level_eq : Level.ofThreshold? request.setup.level = some request.threshold :=
    Level.ofThreshold?_toText request.threshold
  rw [sinksFor, Request.location?, ← file_eq]
  simp only [Setup.start, level_eq] at started
  split at started
  · contradiction
  · rename_i threshold _ same
    obtain ⟨rfl, rfl⟩ : files = after ∧ _ = sinks := by simpa using started
    obtain rfl := Option.some.inj same
    rfl
  split at started
  · simp at started
  split at started
  · simp at started
  split at started
  · simp at started
  obtain ⟨rfl, rfl⟩ : _ = after ∧ _ = sinks := by simpa using started
  rfl

end SetUp

namespace Delivery

/-- The console gets what the outputs that the latest setup asks for give it. -/
theorem consoleText_eq (current : Location) (latest : Option Request) (record : Record) :
    consoleText ⟨latest, record⟩ =
      if (sinksFor current latest).admits record then (sinksFor current latest).consoleText record
      else "" := by
  cases latest with
  | none =>
    by_cases severe : Level.warning ≤ record.level <;>
      simp [consoleText, isShown, isStray, sinksFor, Sinks.unset, Sinks.admits, Sinks.consoleText,
        severe]
  | some request =>
    rcases request with ⟨threshold, file, console⟩
    have file_eq : ((Request.mk threshold file console).location? current).isNone =
        (CommandLine.nonempty file).isNone := Option.isNone_map
    by_cases admitted : threshold ≤ record.level
    · cases console <;>
        simp [consoleText, isShown, isStray, sinksFor, Sinks.admits, Sinks.consoleText,
          Request.isMute, file_eq, admitted]
    · simp [consoleText, isShown, isStray, sinksFor, Sinks.admits, admitted]

theorem fileText_eq (current location : Location) (latest : Option Request) (record : Record) :
    fileText current location ⟨latest, record⟩ =
      if (sinksFor current latest).admits record = true ∧
          (sinksFor current latest).file = some location
      then record.fileLine else "" := by
  cases latest with
  | none => simp [fileText, isFiled, sinksFor, Sinks.unset]
  | some request =>
    by_cases admitted : request.threshold ≤ record.level <;>
      simp [fileText, isFiled, sinksFor, Sinks.admits, admitted]

end Delivery

namespace Journal

variable {journal next last : Journal} {latest : Option Request} {request : Request}
  {location : Location} {record : Record} {actions : List Action}

/-- The journal writes where the latest request says. -/
structure Follows (journal : Journal) (latest : Option Request) : Prop where
  plain : File.Path.IsPlain journal.files.current
  isOpen : journal.IsOpen
  sinks_eq : journal.sinks = sinksFor journal.files.current latest

theorem follows_ofFiles {files : Tree} (plain : File.Path.IsPlain files.current) :
    (ofFiles files).Follows none where
  plain := plain
  isOpen := fun _ member => absurd member (Option.not_mem_none _)
  sinks_eq := rfl

/-- A setup that succeeds writes nothing, and from then on the journal follows it. -/
theorem Follows.setUp (follows : journal.Follows latest)
    (started : journal.setUp request.setup = (next, .ok ())) :
    next.Follows (some request) ∧ next.console = journal.console ∧
      (∀ location, next.files.contentsAt location = journal.files.contentsAt location) ∧
      ChangesOnly next.sinks.file.toList journal.files next.files := by
  obtain ⟨isOpen, located⟩ := isOpen_of_setUp follows.plain started
  have changes := journal.changesOnly_setUp follows.plain request.setup
  rw [started] at changes
  rw [Journal.setUp] at started
  split at started
  · rename_i files sinks begun
    obtain ⟨rfl, _⟩ := Prod.mk.inj started
    obtain ⟨sinks_eq, contents_eq⟩ := eq_sinksFor_of_start follows.plain begun
    refine ⟨⟨changes.current_eq ▸ follows.plain, isOpen, ?_⟩, rfl, contents_eq, located ▸ changes⟩
    rw [changes.current_eq]
    exact sinks_eq
  · simp at started

theorem contentsAt_appendText {files : Tree} {target : Location} (below : target ≠ [])
    (text : String) (location : Location) :
    (appendText files target text).contentsAt location =
      if location = target then files.contentsAt location ++ text.toUTF8
      else files.contentsAt location := by
  rw [appendText, File.Tree.contentsAt_put_file below]
  split
  · rename_i same
    rw [same]
  · rfl

/-- What a record brings to the console. -/
theorem Follows.console_log (follows : journal.Follows latest) (record : Record) :
    (journal.log record).console = journal.console ++ Delivery.consoleText ⟨latest, record⟩ := by
  rw [Delivery.consoleText_eq journal.files.current, ← follows.sinks_eq, log]
  split
  · rfl
  · exact String.append_empty.symm

/-- A record that has room in the log file is appended to it, if the outputs let it pass. -/
theorem files_log_of_room (room : journal.rollsOver record = false) :
    (journal.log record).files =
      match journal.sinks.admits record, journal.sinks.file with
      | true, some location => appendText journal.files location record.fileLine
      | _, _ => journal.files := by
  cases admitted : journal.sinks.admits record with
  | false => rw [Journal.log, if_neg (by simp [admitted])]
  | true =>
    rw [Journal.log, if_pos admitted]
    cases file_eq : journal.sinks.file with
    | none => rfl
    | some location =>
      have fits : isTooMuch journal.files location record.fileLine = false := by
        rwa [rollsOver, admitted, file_eq, Bool.true_and, Option.any_some] at room
      exact writeLine_of_room fits

/-- What a record brings to the file at a location. -/
theorem Follows.contentsAt_log (follows : journal.Follows latest)
    (room : journal.rollsOver record = false) (location : Location) :
    (journal.log record).files.contentsAt location =
      journal.files.contentsAt location ++
        (Delivery.fileText journal.files.current location ⟨latest, record⟩).toUTF8 := by
  have nothing : ∀ contents : ByteArray, contents ++ "".toUTF8 = contents := fun contents => by simp
  rw [Delivery.fileText_eq, ← follows.sinks_eq, files_log_of_room room]
  cases admitted : journal.sinks.admits record with
  | false => exact (nothing _).symm
  | true =>
    cases file_eq : journal.sinks.file with
    | none => exact (nothing _).symm
    | some target =>
      obtain ⟨_, contents, stands⟩ := follows.isOpen target file_eq
      refine (contentsAt_appendText (File.Tree.ne_nil_of_file stands) _ _).trans ?_
      by_cases same : location = target
      · rw [if_pos same, if_pos ⟨rfl, congrArg some same.symm⟩]
      · rw [if_neg same, if_neg fun both => same (Option.some.inj both.2).symm, nothing]

theorem Follows.changesOnly_log (follows : journal.Follows latest)
    (room : journal.rollsOver record = false) :
    ChangesOnly journal.sinks.file.toList journal.files (journal.log record).files := by
  rw [files_log_of_room room]
  cases journal.sinks.admits record with
  | false => exact .refl _ _
  | true =>
    cases file_eq : journal.sinks.file with
    | none => exact .refl _ _
    | some target =>
      obtain ⟨_, contents, stands⟩ := follows.isOpen target file_eq
      exact changesOnly_appendText (File.Tree.ne_nil_of_file stands) (by simp [stands]) _

/-- A record leaves the journal following the same request, and changes no file but the log file. -/
theorem Follows.log (follows : journal.Follows latest) (room : journal.rollsOver record = false) :
    (journal.log record).Follows latest ∧
      ChangesOnly journal.sinks.file.toList journal.files (journal.log record).files := by
  obtain ⟨_, continues⟩ := journal.exists_continues_log record
  have changes := follows.changesOnly_log room
  refine ⟨⟨continues.plain follows.isOpen follows.plain, continues.isOpen follows.isOpen, ?_⟩, changes⟩
  rw [continues.sinks_eq, changes.current_eq, follows.sinks_eq]

/-- The journal after some actions, if all setups among them succeed and each record has room in its
log file. -/
def run? (journal : Journal) : List Action → Option Journal
  | [] => some journal
  | .setUp request :: rest =>
    match journal.setUp request.setup with
    | (next, .ok ()) => next.run? rest
    | (_, .error _) => none
  | .log name level message stamp :: rest =>
    if journal.rollsOver ⟨level, loggerNamed name, message, stamp⟩ then none
    else (journal.log ⟨level, loggerNamed name, message, stamp⟩).run? rest

theorem run?_setUp_eq_some_iff : journal.run? (.setUp request :: actions) = some last ↔
    ∃ next, journal.setUp request.setup = (next, .ok ()) ∧ next.run? actions = some last := by
  rw [run?]
  rcases journal.setUp request.setup with ⟨next, fault | _⟩ <;> simp

/-- What a run from a journal brings to its outputs, and which files it leaves alone. -/
structure Brings (journal last : Journal) (latest : Option Request) (actions : List Action) :
    Prop where
  console_eq : last.console =
    journal.console ++ String.join ((deliveries latest actions).map Delivery.consoleText)
  contents_eq : ∀ location, last.files.contentsAt location =
    journal.files.contentsAt location ++
      (String.join ((deliveries latest actions).map
        (Delivery.fileText journal.files.current location))).toUTF8
  changes : ChangesOnly (journal.sinks.file.toList ++ logFiles journal.files.current actions)
    journal.files last.files
  stands : ∀ location ∈ journal.sinks.file.toList ++ logFiles journal.files.current actions,
    ∃ contents, last.files.node? location = some (.file contents)

theorem Follows.brings_nil (follows : journal.Follows latest) :
    journal.Brings journal latest [] := by
  refine ⟨by simp [deliveries], by simp [deliveries], .refl _ _, ?_⟩
  intro location member
  exact (follows.isOpen location (Option.mem_toList.mp (by simpa [logFiles] using member))).2

/-- What a run brings after a setup is what it brings with that setup before it. -/
theorem Follows.brings_setUp (follows : journal.Follows latest)
    (started : journal.setUp request.setup = (next, .ok ()))
    (brings : next.Brings last (some request) actions) :
    journal.Brings last latest (.setUp request :: actions) := by
  obtain ⟨nextFollows, console_eq, contents_eq, changes⟩ := follows.setUp started
  have file_eq : next.sinks.file = request.location? journal.files.current := by
    rw [nextFollows.sinks_eq, changes.current_eq]
    rfl
  have opened : ∀ location ∈ next.sinks.file.toList,
      ∃ contents, next.files.node? location = some (.file contents) :=
    fun location member => (nextFollows.isOpen location (Option.mem_toList.mp member)).2
  have later := brings.changes
  have standsLater := brings.stands
  rw [changes.current_eq] at later standsLater
  rw [file_eq] at changes later standsLater opened
  refine ⟨?_, fun location => ?_, ?_, ?_⟩
  · rw [brings.console_eq, console_eq]
    rfl
  · rw [brings.contents_eq, contents_eq, changes.current_eq]
    rfl
  · rw [logFiles]
    refine (changes.mono ?_).trans (later.mono ?_)
    · exact List.Subset.trans (List.subset_append_left ..) (List.subset_append_right ..)
    · exact List.subset_append_right ..
  · intro location member
    rw [logFiles] at member
    -- The file of the setup before is no longer written to, but it is still there.
    rcases List.mem_append.mp member with old | new
    · obtain ⟨_, _, stands⟩ := follows.isOpen location (Option.mem_toList.mp old)
      obtain ⟨_, stands⟩ := changes.exists_file opened stands
      exact later.exists_file standsLater stands
    · exact standsLater location new

/-- What a run brings after a record is, behind that record, what it brings with it. -/
theorem Follows.brings_log (follows : journal.Follows latest) {name message : String}
    {level : Level} {stamp : Stamp}
    (room : journal.rollsOver ⟨level, loggerNamed name, message, stamp⟩ = false)
    (brings : (journal.log ⟨level, loggerNamed name, message, stamp⟩).Brings last latest actions) :
    journal.Brings last latest (.log name level message stamp :: actions) := by
  obtain ⟨_, changes⟩ := follows.log room
  have later := brings.changes
  have stands := brings.stands
  rw [sinks_log, changes.current_eq] at later stands
  refine ⟨?_, fun location => ?_, ?_, stands⟩
  · rw [brings.console_eq, follows.console_log, String.append_assoc, deliveries, List.map_cons,
      String.join_cons]
  · rw [brings.contents_eq, follows.contentsAt_log room, changes.current_eq, ByteArray.append_assoc,
      deliveries, List.map_cons, String.join_cons]
    simp
  · exact (changes.mono (List.subset_append_left ..)).trans later

theorem brings_of_run? (follows : journal.Follows latest) (ran : journal.run? actions = some last) :
    journal.Brings last latest actions := by
  induction actions generalizing journal latest with
  | nil =>
    obtain rfl := Option.some.inj ran
    exact follows.brings_nil
  | cons action rest ih =>
    cases action with
    | setUp request =>
      obtain ⟨next, started, later⟩ := run?_setUp_eq_some_iff.mp ran
      exact follows.brings_setUp started (ih (follows.setUp started).1 later)
    | log name level message stamp =>
      rw [run?] at ran
      split at ran
      · contradiction
      · rename_i fits
        have room := Bool.eq_false_iff.mpr fits
        exact follows.brings_log room (ih (follows.log room).1 ran)

end Journal

section Console

variable {delivery : Delivery} {delivered : List Delivery}

theorem join_map_ite {α : Type} (keep : α → Bool) (text : α → String) (items : List α) :
    String.join (items.map fun item => if keep item then text item else "") =
      String.join ((items.filter keep).map text) := by
  induction items with
  | nil => rfl
  | cons item rest ih =>
    rw [List.map_cons, String.join_cons, ih, List.filter_cons]
    cases keep item with
    | true => exact String.join_cons.symm
    | false => exact String.empty_append

/-- What the latest setup asks for on the console is not stray. -/
theorem Delivery.isStray_of_isShown (shown : delivery.isShown = true) :
    delivery.isStray = false := by
  rcases delivery with ⟨_ | request, record⟩
  · contradiction
  · have console : request.console = true := by
      simp only [isShown, Option.any_some, decide_eq_true_iff] at shown
      exact shown.1
    simp [isStray, Request.isMute, console]

/-- The text on the console is longer than what was asked for by a character at least for each stray
record. -/
theorem length_shown_add_countP_le (delivered : List Delivery) :
    (String.join ((delivered.filter Delivery.isShown).map (·.record.consoleLine))).length +
        delivered.countP Delivery.isStray ≤
      (String.join (delivered.map Delivery.consoleText)).length := by
  induction delivered with
  | nil => exact le_rfl
  | cons delivery rest ih =>
    rw [List.map_cons, String.join_cons, String.length_append, List.countP_cons]
    cases shown : delivery.isShown with
    | true =>
      rw [List.filter_cons_of_pos shown, List.map_cons, String.join_cons, String.length_append,
        Delivery.consoleText, if_pos shown, Delivery.isStray_of_isShown shown,
        if_neg Bool.false_ne_true]
      omega
    | false =>
      rw [List.filter_cons_of_neg (Bool.eq_false_iff.mp shown), Delivery.consoleText,
        if_neg (Bool.eq_false_iff.mp shown)]
      cases stray : delivery.isStray with
      | true =>
        have filled : 0 < delivery.record.bareLine.length := by
          rw [Record.bareLine, String.length_append]
          exact Nat.add_pos_right _ (by decide)
        rw [if_pos rfl, if_pos rfl]
        omega
      | false =>
        rw [if_neg Bool.false_ne_true, if_neg Bool.false_ne_true]
        omega

/-- The console holds what was asked for exactly if no record is stray. -/
theorem join_consoleText_eq_iff :
    String.join (delivered.map Delivery.consoleText) =
        String.join ((delivered.filter Delivery.isShown).map (·.record.consoleLine)) ↔
      ∀ delivery ∈ delivered, delivery.isStray = false := by
  constructor
  · intro same
    have bound := length_shown_add_countP_le delivered
    rw [same] at bound
    have none : delivered.countP Delivery.isStray = 0 := by omega
    simpa using List.countP_eq_zero.mp none
  · intro noStray
    rw [← join_map_ite]
    refine congrArg String.join (List.map_congr_left fun delivery member => ?_)
    rw [Delivery.consoleText, noStray delivery member, if_neg Bool.false_ne_true]

end Console

/-- What a run leaves of the records that are logged in it. -/
structure Routes (files : Tree) (actions : List Action) (last : Journal) : Prop where
  console_eq : last.console = String.join ((deliveries none actions).map Delivery.consoleText)
  /-- The console holds each record for which the latest setup asks, once and in order, and nothing
  else, exactly if no record is logged for which it has no output although it lets it pass. -/
  asAsked_iff : last.console =
      String.join (((deliveries none actions).filter Delivery.isShown).map (·.record.consoleLine)) ↔
    ∀ delivery ∈ deliveries none actions, delivery.isStray = false
  /-- A log file holds what it held before and then each record for which the latest setup asks
  there, once and in order. -/
  contents_eq : ∀ location ∈ logFiles files.current actions,
    last.files.node? location = some (.file (files.contentsAt location ++
      (String.join (((deliveries none actions).filter
        (Delivery.isFiled files.current location)).map (·.record.fileLine))).toUTF8))
  changes : ChangesOnly (logFiles files.current actions) files last.files

/-- Over any setups that succeed and any records in between that have room in their log files, each
record goes to the outputs of the latest setup and nowhere else, except that warnings come to the
console where there is no output. -/
theorem routes_of_run? {files : Tree} {actions : List Action} {last : Journal}
    (plain : File.Path.IsPlain files.current)
    (ran : (Journal.ofFiles files).run? actions = some last) : Routes files actions last := by
  have brings := Journal.brings_of_run? (Journal.follows_ofFiles plain) ran
  have console_eq : last.console =
      String.join ((deliveries none actions).map Delivery.consoleText) :=
    brings.console_eq.trans String.empty_append
  exact
    { console_eq
      asAsked_iff := by
        rw [console_eq]
        exact join_consoleText_eq_iff
      contents_eq := by
        intro location member
        obtain ⟨contents, stands⟩ := brings.stands location member
        have contents_eq := brings.contents_eq location
        rw [File.Tree.contentsAt_of_node? stands] at contents_eq
        rw [stands, contents_eq, ← join_map_ite]
        rfl
      changes := brings.changes }

private def loggedFiles : Tree :=
  (Tree.ofCurrent ["work"]).put ["work", "a.log"] (.file "old\n".toUTF8)

/-- The same log file twice, by different paths, another one in between, and no output at the
end. -/
private def changingSetups : List Action :=
  [.setUp ⟨.info, some "a.log", true⟩, .log "m" .debug "1" ⟨"8:01", "m:1"⟩,
   .log "m" .info "2" ⟨"8:02", "m:2"⟩,
   .setUp ⟨.error, some "logs/b.log", false⟩, .log "" .warning "3" ⟨"8:03", ":3"⟩,
   .log "m.n" .critical "4" ⟨"8:04", "n:4"⟩,
   .setUp ⟨.debug, some "./logs/../a.log", false⟩, .log "m" .debug "5" ⟨"8:05", "m:5"⟩,
   .setUp ⟨.warning, some "", false⟩, .log "m" .info "6" ⟨"8:06", "m:6"⟩,
   .log "m" .error "7" ⟨"8:07", "m:7"⟩]

theorem routes_of_run?_changingSetups : File.Path.IsPlain loggedFiles.current ∧
    ∃ last, (Journal.ofFiles loggedFiles).run? changingSetups = some last ∧
      Routes loggedFiles changingSetups last ∧
      last.console = "INFO - nfa2dfa.m - 2\n7\n" ∧
      last.files.node? ["work", "a.log"] =
        some (.file ("old\n8:02 - nfa2dfa.m - INFO - m:2 - 2\n" ++
          "8:05 - nfa2dfa.m - DEBUG - m:5 - 5\n").toUTF8) := by
  have plain : File.Path.IsPlain loggedFiles.current := by
    rintro name (_ | ⟨_, ⟨⟩⟩)
    exact ⟨by decide, by decide⟩
  obtain ⟨last, ran⟩ : ∃ last, (Journal.ofFiles loggedFiles).run? changingSetups = some last :=
    Option.isSome_iff_exists.mp (by decide +kernel)
  have routes := routes_of_run? plain ran
  refine ⟨plain, last, ran, routes, routes.console_eq.trans (by decide +kernel), ?_⟩
  rw [routes.contents_eq ["work", "a.log"] (by decide +kernel)]
  decide +kernel

/-- Neither the console nor a file is asked for, and still a warning comes to the console. -/
private def muteSetup : List Action := 
  [.setUp ⟨.info, none, false⟩, .log "m" .warning "x" ⟨"8:01", "m:1"⟩]

theorem console_mute_ne_asked :
    ∃ last, (Journal.ofFiles (Tree.ofCurrent ["work"])).run? muteSetup = some last ∧
      last.console = "x\n" ∧
      last.console ≠ String.join (((deliveries none muteSetup).filter Delivery.isShown).map
        (·.record.consoleLine)) :=
  ⟨_, rfl, by decide +kernel, by decide +kernel⟩

end Determinizer.Log
