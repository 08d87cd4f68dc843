import Determinizer.NFA.Reader
import Determinizer.Proofs.Text.Words

/-! # What a description says

The first three lines declare the states, and each later line gives an edge by its first three
words. Reading succeeds exactly if these lines are in order. The automaton that is read has the
edges on the lines and no others, and its initial state, its final states and its targets are
declared.
-/

namespace Determinizer.NFA

/-- The edge on a line, if it has three words. -/
def edgeOn? (line : String) : Option (Name × Symbol × Name) :=
  match Text.words line with
  | source :: symbol :: target :: _ => some (source, symbol, target)
  | _ => none

/-- An edge joins declared states. A line without an edge is blank, or it is read leniently. -/
def Readable (strict : Bool) (states : List Name) (line : String) : Prop :=
  match Text.words line with
  | [] => True
  | source :: _ :: target :: _ => source ∈ states ∧ target ∈ states
  | _ => strict = false

/-- The same automaton with the edges on some lines added. -/
structure Extends (lines : List String) (nfa grown : NFA) : Prop where
  states_eq : grown.states = nfa.states
  initial_eq : grown.initial = nfa.initial
  finals_eq : grown.finals = nfa.finals
  mem_targets_iff : ∀ source symbol target, target ∈ grown.targets source symbol ↔
    target ∈ nfa.targets source symbol ∨
      ∃ line ∈ lines, edgeOn? line = some (source, symbol, target)

variable {strict : Bool} {nfa grown : NFA} {source target : Name} {symbol : Symbol}
  {line first second third : String} {lines : List String} {entries : List (String × Nat)}

theorem edgeOn?_of_words {rest : List String}
    (words : Text.words line = source :: symbol :: target :: rest) :
    edgeOn? line = some (source, symbol, target) := by
  simp only [edgeOn?, words]

theorem edgeOn?_of_short
    (short : ∀ source symbol target rest, Text.words line ≠ source :: symbol :: target :: rest) :
    edgeOn? line = none := by
  rw [edgeOn?]
  split
  · rename_i words
    exact (short _ _ _ _ words).elim
  · rfl

/-- A line with one or two words is readable in lenient reading. -/
theorem readable_iff_of_short {states : List Name} (filled : Text.words line ≠ [])
    (short : ∀ source symbol target rest, Text.words line ≠ source :: symbol :: target :: rest) :
    Readable strict states line ↔ strict = false := by
  rw [Readable]
  split
  · contradiction
  · rename_i words
    exact (short _ _ _ _ words).elim
  · rfl

theorem edgeOn?_trim (line : String) : edgeOn? (Text.trim line) = edgeOn? line := by
  rw [edgeOn?, Text.words_trim, edgeOn?]

theorem readable_trim_iff {states : List Name} :
    Readable strict states (Text.trim line) ↔ Readable strict states line := by
  rw [Readable, Text.words_trim, Readable]

/-- A line with an edge is readable if the edge joins declared states. -/
theorem readable_iff_of_edge {states : List Name}
    (edge : edgeOn? line = some (source, symbol, target)) :
    Readable strict states line ↔ source ∈ states ∧ target ∈ states := by
  rw [edgeOn?] at edge
  split at edge
  · rename_i words
    cases edge
    simp only [Readable, words]
  · contradiction

theorem readable_of_blank {states : List Name} (blank : Text.words line = []) :
    Readable strict states line := by
  simp only [Readable, blank]

theorem extends_nil (nfa : NFA) : Extends [] nfa nfa where
  states_eq := rfl
  initial_eq := rfl
  finals_eq := rfl
  mem_targets_iff := by simp

/-- A line without an edge changes nothing. -/
theorem Extends.skip (noEdge : edgeOn? line = none) (later : Extends lines nfa grown) :
    Extends (line :: lines) nfa grown where
  states_eq := later.states_eq
  initial_eq := later.initial_eq
  finals_eq := later.finals_eq
  mem_targets_iff := by
    intro source symbol target
    simp [later.mem_targets_iff, noEdge]

/-- An edge from a declared state can be added, and then the later lines. -/
theorem exists_addEdge (declared : source ∈ nfa.states)
    (edge : edgeOn? line = some (source, symbol, target)) :
    ∃ next, nfa.addEdge source symbol target = .ok next ∧ next.states = nfa.states ∧
      ∀ {lines grown}, Extends lines next grown → Extends (line :: lines) nfa grown := by
  cases added : nfa.addEdge source symbol target with
  | error name => exact absurd declared (addTargets_eq_error_iff.mp added).1
  | ok next =>
    have fields : next.states = nfa.states ∧ next.initial = nfa.initial ∧
        next.finals = nfa.finals := by
      rw [addEdge, addTargets, dif_pos declared, Except.ok.injEq] at added
      rw [← added]
      exact ⟨rfl, rfl, rfl⟩
    obtain ⟨states_eq, initial_eq, finals_eq⟩ := fields
    refine ⟨next, rfl, states_eq, fun later => ?_⟩
    refine ⟨later.states_eq.trans states_eq, later.initial_eq.trans initial_eq,
      later.finals_eq.trans finals_eq, fun state letter name => ?_⟩
    rw [later.mem_targets_iff, mem_targets_of_addTargets added, List.exists_mem_cons_iff, edge,
      or_assoc]
    simp [eq_comm]

/-- Readable lines are read, and their edges are added. -/
theorem readEdges_of_readable
    (readable : ∀ line ∈ entries.map Prod.fst, Readable strict nfa.states line) :
    ∃ grown, (readEdges strict nfa entries).result = .ok grown ∧
      Extends (entries.map Prod.fst) nfa grown := by
  -- after the end come the blank line, the edge with its three ends, and the short line
  fun_induction readEdges strict nfa entries with
  | case1 nfa => exact ⟨nfa, rfl, extends_nil nfa⟩
  | case2 nfa line number rest blank ih =>
    obtain ⟨grown, read, later⟩ := ih (List.forall_mem_cons.mp readable).2
    exact ⟨grown, read, later.skip (by simp only [edgeOn?, blank])⟩
  | case3 nfa line number rest source symbol target more words state failed =>
    obtain ⟨here, _⟩ := List.forall_mem_cons.mp readable
    simp only [Readable, words] at here
    exact absurd here.1 (addTargets_eq_error_iff.mp failed).1
  | case4 nfa line number rest source symbol target more words next added declared ih =>
    obtain ⟨here, following⟩ := List.forall_mem_cons.mp readable
    simp only [Readable, words] at here
    obtain ⟨_, same, states_eq, extend⟩ := exists_addEdge here.1 (edgeOn?_of_words words)
    obtain rfl := Except.ok.inj (added.symm.trans same)
    obtain ⟨grown, read, later⟩ := ih (states_eq ▸ following)
    exact ⟨grown, read, extend later⟩
  | case5 nfa line number rest source symbol target more words next added undeclared =>
    obtain ⟨here, _⟩ := List.forall_mem_cons.mp readable
    simp only [Readable, words] at here
    exact absurd here.2 undeclared
  | case6 nfa line number rest isStrict filled short =>
    obtain ⟨here, _⟩ := List.forall_mem_cons.mp readable
    rw [readable_iff_of_short filled short, isStrict] at here
    contradiction
  | case7 nfa line number rest lenient filled short ih =>
    obtain ⟨grown, read, later⟩ := ih (List.forall_mem_cons.mp readable).2
    exact ⟨grown, (Outcome.result_report_bind ..).trans read, later.skip (edgeOn?_of_short short)⟩

/-- Only readable lines are read. -/
theorem readable_of_readEdges (read : (readEdges strict nfa entries).result = .ok grown) :
    ∀ line ∈ entries.map Prod.fst, Readable strict nfa.states line := by
  fun_induction readEdges strict nfa entries with
  | case1 nfa => simp
  | case2 nfa line number rest blank ih =>
    exact List.forall_mem_cons.mpr ⟨by simp only [Readable, blank], ih read⟩
  | case3 nfa line number rest source symbol target more words state failed => contradiction
  | case4 nfa line number rest source symbol target more words next added declared ih =>
    have known : source ∈ nfa.states := by
      by_contra foreign
      rw [addEdge, addTargets_eq_error_iff.mpr ⟨foreign, rfl⟩] at added
      contradiction
    obtain ⟨_, same, states_eq, _⟩ := exists_addEdge known (edgeOn?_of_words words)
    obtain rfl := Except.ok.inj (added.symm.trans same)
    refine List.forall_mem_cons.mpr ⟨?_, states_eq ▸ ih read⟩
    simp only [Readable, words]
    exact ⟨known, declared⟩
  | case5 nfa line number rest source symbol target more words next added undeclared =>
    contradiction
  | case6 nfa line number rest isStrict filled short => contradiction
  | case7 nfa line number rest lenient filled short ih =>
    refine List.forall_mem_cons.mpr ⟨?_, ih ((Outcome.result_report_bind ..).symm.trans read)⟩
    exact (readable_iff_of_short filled short).mpr (Bool.eq_false_iff.mpr lenient)

/-- Lines that are read strictly are read leniently in the same way, and none is passed over. -/
theorem readEdges_eq_of_strict (read : (readEdges true nfa entries).result = .ok grown)
    (strict : Bool) : readEdges strict nfa entries = ⟨[], .ok grown⟩ := by
  fun_induction readEdges true nfa entries with
  | case1 nfa =>
    obtain rfl := Except.ok.inj read
    rfl
  | case2 nfa line number rest blank ih => simp only [readEdges, blank, ih read]
  | case3 nfa line number rest source symbol target more words state failed => contradiction
  | case4 nfa line number rest source symbol target more words next added declared ih =>
    simp only [readEdges, words, added, if_pos declared, ih read]
  | case5 nfa line number rest source symbol target more words next added undeclared =>
    contradiction
  | case6 nfa line number rest isStrict filled short => contradiction
  | case7 nfa line number rest lenient filled short ih => exact absurd rfl lenient

/-- The first three lines are in order: the second names a state, and it and the final states are
declared. -/
structure Heading (first second third : String) (initial : Name) : Prop where
  initial_eq : Text.words second = [initial]
  initial_declared : initial ∈ Text.words first
  finals_declared : ∀ state ∈ Text.words third, state ∈ Text.words first

theorem readHeader_eq_ok_iff : readHeader first second third = .ok nfa ↔
    ∃ initial, Heading first second third initial ∧
      nfa = ofStates (Text.words first).eraseDups initial (Text.words third).eraseDups := by
  constructor
  · intro read
    simp only [readHeader] at read
    split at read
    · contradiction
    · split at read
      · rename_i initial words
        split at read
        · rename_i declared
          split at read
          · contradiction
          · rename_i none
            refine ⟨initial, ⟨words, List.mem_eraseDups.mp declared, ?_⟩, (Except.ok.inj read).symm⟩
            simpa using List.find?_eq_none.mp none
        · contradiction
      · contradiction
  · rintro ⟨initial, ⟨words, declared, known⟩, rfl⟩
    have filled : (Text.words first).eraseDups.isEmpty = false :=
      List.isEmpty_eq_false_iff_exists_mem.mpr ⟨initial, List.mem_eraseDups.mpr declared⟩
    have none : (Text.words third).eraseDups.find?
        (fun state => !(Text.words first).eraseDups.contains state) = none := by
      simpa [List.find?_eq_none] using known
    simp only [readHeader, filled, words, none, if_pos (List.mem_eraseDups.mpr declared)]
    rfl

/-- What a description says, line by line, and the automaton that is read from it. -/
structure Describes (strict : Bool) (first second third : String) (lines : List String)
    (nfa : NFA) : Prop where
  heading : Heading first second third nfa.initial
  readable : ∀ line ∈ lines, Readable strict nfa.states line
  states_eq : nfa.states = (Text.words first).eraseDups
  finals_eq : nfa.finals = (Text.words third).eraseDups
  mem_targets_iff : ∀ source symbol target, target ∈ nfa.targets source symbol ↔
    ∃ line ∈ lines, edgeOn? line = some (source, symbol, target)

namespace Describes

theorem initial_declared (described : Describes strict first second third lines nfa) :
    nfa.initial ∈ nfa.states := by
  rw [described.states_eq, List.mem_eraseDups]
  exact described.heading.initial_declared

theorem targets_declared (described : Describes strict first second third lines nfa)
    (edge : target ∈ nfa.targets source symbol) : target ∈ nfa.states := by
  obtain ⟨line, member, onLine⟩ := (described.mem_targets_iff source symbol target).mp edge
  exact ((readable_iff_of_edge onLine).mp (described.readable line member)).2

end Describes

/-- The heading alone says what the automaton without edges is. -/
theorem describes_of_readHeader (made : readHeader first second third = .ok nfa) :
    Describes strict first second third [] nfa := by
  obtain ⟨initial, heading, rfl⟩ := readHeader_eq_ok_iff.mp made
  exact ⟨heading, by simp, rfl, rfl, by simp⟩

/-- Later lines add their edges to what the heading says. -/
theorem Describes.extend (described : Describes strict first second third [] nfa)
    (readable : ∀ line ∈ lines, Readable strict nfa.states line) (added : Extends lines nfa grown) :
    Describes strict first second third lines grown where
  heading := added.initial_eq ▸ described.heading
  readable := added.states_eq ▸ readable
  states_eq := added.states_eq.trans described.states_eq
  finals_eq := added.finals_eq.trans described.finals_eq
  mem_targets_iff := by
    intro source symbol target
    simp [added.mem_targets_iff, described.mem_targets_iff]

theorem heading_trim_iff {initial : Name} :
    Heading (Text.trim first) (Text.trim second) (Text.trim third) initial ↔
      Heading first second third initial := by
  have fields : ∀ first second third, Heading first second third initial ↔
      Text.words second = [initial] ∧ initial ∈ Text.words first ∧
        ∀ state ∈ Text.words third, state ∈ Text.words first :=
    fun _ _ _ => ⟨fun ⟨words, declared, known⟩ => ⟨words, declared, known⟩,
      fun ⟨words, declared, known⟩ => ⟨words, declared, known⟩⟩
  simp only [fields, Text.words_trim]

/-- Blanks at the ends of lines say nothing. -/
theorem describes_trim_iff :
    Describes strict (Text.trim first) (Text.trim second) (Text.trim third) (lines.map Text.trim)
      nfa ↔ Describes strict first second third lines nfa := by
  constructor
  all_goals
    rintro ⟨heading, readable, states_eq, finals_eq, mem_targets_iff⟩
    refine ⟨?_, ?_, ?_, ?_, ?_⟩
    · simpa only [heading_trim_iff] using heading
    · simpa only [List.forall_mem_map, readable_trim_iff] using readable
    · simpa only [Text.words_trim] using states_eq
    · simpa only [Text.words_trim] using finals_eq
    · simpa only [List.mem_map, exists_exists_and_eq_and, edgeOn?_trim] using mem_targets_iff

/-- Reading a text that is not blank reads its heading and then its other lines. -/
theorem ofText_eq {text : String} (visible : Text.isBlankText text = false)
    (lines_eq : Text.lines text = first :: second :: third :: lines) (more : lines ≠ []) :
    ofText strict text =
      (Outcome.ofExcept (readHeader (Text.trim first) (Text.trim second) (Text.trim third)) >>=
        fun nfa => readEdges strict nfa ((lines.map Text.trim).zipIdx 4)) := by
  obtain ⟨fourth, rest, rfl⟩ := List.exists_cons_of_ne_nil more
  simp only [ofText, visible, lines_eq, List.map_cons]
  rfl

theorem result_ofText {text : String} (visible : Text.isBlankText text = false)
    (lines_eq : Text.lines text = first :: second :: third :: lines) (more : lines ≠ []) :
    (ofText strict text).result =
      (readHeader (Text.trim first) (Text.trim second) (Text.trim third)).bind fun nfa =>
        (readEdges strict nfa ((lines.map Text.trim).zipIdx 4)).result := by
  rw [ofText_eq visible lines_eq more, Outcome.result_bind, Outcome.result_ofExcept]

/-- A text with its lines in order is read. -/
theorem exists_ofText {text : String} {initial : Name}
    (lines_eq : Text.lines text = first :: second :: third :: lines) (more : lines ≠ [])
    (heading : Heading first second third initial)
    (readable : ∀ line ∈ lines, Readable strict (Text.words first).eraseDups line) :
    ∃ nfa, (ofText strict text).result = .ok nfa := by
  have visible : Text.isBlankText text = false :=
    Text.isBlankText_eq_false (lines_eq ▸ List.mem_cons_self) heading.initial_declared
  obtain ⟨empty, made⟩ : ∃ empty, readHeader (Text.trim first) (Text.trim second)
      (Text.trim third) = .ok empty :=
    ⟨_, readHeader_eq_ok_iff.mpr ⟨initial, heading_trim_iff.mpr heading, rfl⟩⟩
  have states_eq : empty.states = (Text.words first).eraseDups := by
    rw [(@describes_of_readHeader strict _ _ _ _ made).states_eq, Text.words_trim]
  have trimmed : ∀ line ∈ ((lines.map Text.trim).zipIdx 4).map Prod.fst,
      Readable strict empty.states line := by
    simpa only [List.zipIdx_map_fst, List.forall_mem_map, readable_trim_iff, states_eq]
      using readable
  obtain ⟨nfa, read, _⟩ := readEdges_of_readable trimmed
  rw [result_ofText visible lines_eq more, made]
  exact ⟨nfa, read⟩

/-- A text that is read strictly is read leniently in the same way, and nothing is reported. -/
theorem ofText_eq_of_strict {text : String} (read : (ofText true text).result = .ok nfa)
    (strict : Bool) : ofText strict text = ⟨[], .ok nfa⟩ := by
  unfold ofText at read ⊢
  split at read
  · contradiction
  · rename_i visible
    rw [if_neg visible]
    split at read
    · rename_i first second third fourth rest lines_eq
      rw [Outcome.result_bind, Outcome.result_ofExcept] at read
      cases made : readHeader first second third with
      | error cause => simp [made, Except.bind] at read
      | ok empty =>
        rw [made] at read
        exact readEdges_eq_of_strict read strict
    · contradiction

/-- What is read is what the lines of the text say. -/
theorem describes_of_ofText {text : String} (read : (ofText strict text).result = .ok nfa) :
    ∃ first second third lines, Text.lines text = first :: second :: third :: lines ∧ lines ≠ [] ∧
      Describes strict first second third lines nfa := by
  by_cases blank : Text.isBlankText text = true
  · simp [ofText, blank] at read
  · match lines_eq : Text.lines text with
    | [] | [_] | [_, _] | [_, _, _] => simp [ofText, blank, lines_eq] at read
    | first :: second :: third :: fourth :: rest =>
      refine ⟨first, second, third, fourth :: rest, rfl, by simp, ?_⟩
      rw [result_ofText (by simpa using blank) lines_eq (by simp)] at read
      cases made : readHeader (Text.trim first) (Text.trim second) (Text.trim third) with
      | error cause => simp [made, Except.bind] at read
      | ok empty =>
        rw [made] at read
        have readable := readable_of_readEdges read
        obtain ⟨_, same, added⟩ := readEdges_of_readable readable
        obtain rfl := Except.ok.inj (read.symm.trans same)
        rw [List.zipIdx_map_fst] at readable added
        exact describes_trim_iff.mp ((describes_of_readHeader made).extend readable added)

/-- The symbols on the edges that are read are single words. -/
theorem isWord_of_mem_targets {text : String} (read : (ofText strict text).result = .ok nfa)
    (edge : target ∈ nfa.targets source symbol) : Text.IsWord symbol := by
  obtain ⟨_, _, _, lines, _, _, described⟩ := describes_of_ofText read
  obtain ⟨line, _, onLine⟩ := (described.mem_targets_iff source symbol target).mp edge
  rw [edgeOn?] at onLine
  split at onLine
  · rename_i words
    cases onLine
    have member : symbol ∈ Text.words line := by simp [words]
    exact (Text.isWord_of_mem_words member).1
  · contradiction

end Determinizer.NFA
