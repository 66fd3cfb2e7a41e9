import TaskDiscovery.Firewall.Rules
import TaskDiscovery.Go.Buffers
import TaskDiscovery.Go.Cidr

/-!
# Loading firewall rules

Rules come from a file, one to a line, or from a table. `LoadFromFile` counts its lines, skips those
that are blank or start with a number sign, and gives up at the first that is not a rule, with the
number of the line in its error. A firewall without rules allows everything, so what matters of a
load is that it fails instead of dropping a line.

`rules_file_decides` says what a file means: either it is refused for its first fault, or it allows
what some line of it allows. A line that is skipped needs no special case in this reading, because
text that starts with a number sign is neither an address nor a network.
-/

namespace TaskDiscovery

open Go (IP IPNet)

/-! ## The loader -/

/-- One side of `parseRule`, source or destination. -/
def parseEndpoint (side : String) (s : List Char) : Except String (Option IPNet × IP) :=
  if Go.contains s ['/'] then
    match Go.parseCIDR s with
    | none =>
      .error ("invalid " ++ side ++ " CIDR " ++ String.ofList s ++ ": invalid CIDR address: "
        ++ String.ofList s)
    | some network => .ok (some network, [])
  else
    match Go.parseIP s with
    | none => .error ("invalid " ++ side ++ " IP " ++ String.ofList s)
    | some ip => .ok (none, ip)

def parseRule (sourceStr destStr : List Char) : Except String FirewallRule :=
  match parseEndpoint "source" sourceStr with
  | .error err => .error err
  | .ok source =>
    match parseEndpoint "destination" destStr with
    | .error err => .error err
    | .ok dest =>
      .ok { sourceIP := source.2, sourceNetwork := source.1, destIP := dest.2,
            destNetwork := dest.1 }

/-- A blank line or a comment. -/
def Skipped (line : List Char) : Prop := Go.trimText line = [] ∨ (Go.trimText line).head? = some '#'

instance (line : List Char) : Decidable (Skipped line) :=
  inferInstanceAs (Decidable (_ ∨ _))

/-- What the loop of `LoadFromFile` makes of a line: nothing, a rule, or an error. -/
def lineRule (line : List Char) : Except String (Option FirewallRule) :=
  if Skipped line then .ok none
  else
    match Go.fields (Go.trimText line) with
    | [sourceStr, destStr] =>
      match parseRule sourceStr destStr with
      | .error err => .error err
      | .ok rule => .ok (some rule)
    | parts => .error ("expected 2 fields (source dest), got " ++ toString parts.length)

def lineError (lineNum : ℕ) (err : String) : String := "line " ++ toString lineNum ++ ": " ++ err

/-- The loop of `LoadFromFile`, after so many lines and with the rules that they gave. -/
def loadLines (lineNum : ℕ) (rules : List FirewallRule) :
    List (List Char) → Except String (List FirewallRule)
  | [] => .ok rules
  | line :: lines =>
    match lineRule line with
    | .error err => .error (lineError (lineNum + 1) err)
    | .ok none => loadLines (lineNum + 1) rules lines
    | .ok (some rule) => loadLines (lineNum + 1) (rules ++ [rule]) lines

/-- A file of rules: the text that can be read, and the error after it, if there is one. -/
structure RulesFile where
  text : List Char
  readErr : Option String := none

namespace RulesFile

def lines (file : RulesFile) : List (List Char) := Go.splitLines [] file.text

/-- A line that the scanner has no room for. -/
def TooLong (line : List Char) : Prop := Go.maxScanTokenSize ≤ Go.byteLength line

instance (line : List Char) : Decidable (TooLong line) := inferInstanceAs (Decidable (_ ≤ _))

/-- `scanner.Err`, once there are no more lines to scan. -/
def scanErr (file : RulesFile) : Option String :=
  if ∃ line ∈ file.lines, TooLong line then some "bufio.Scanner: token too long" else file.readErr

end RulesFile

/-- `LoadFromFile`, given what `os.Open` returns. -/
def loadFromFile : Except String RulesFile → Except String Firewall
  | .error err => .error ("failed to open firewall rules file: " ++ err)
  | .ok file =>
    match loadLines 0 [] (Go.scanLines file.text) with
    | .error err => .error err
    | .ok rules =>
      match file.scanErr with
      | some err => .error ("error reading firewall rules: " ++ err)
      | none => .ok ⟨rules⟩

example : loadFromFile (.ok ⟨"# clients\n10.0.0.0/8  10.0.0.5\r\n\n::1 ::1".toList, none⟩)
    = .ok ⟨[{ sourceNetwork := some ⟨[10, 0, 0, 0], [255, 0, 0, 0]⟩,
              destIP := Go.v4InV6Prefix ++ [10, 0, 0, 5] },
            { sourceIP := List.replicate 15 0 ++ [1], destIP := List.replicate 15 0 ++ [1] }]⟩ := by
  decide +kernel

/-! ## What a text denotes -/

/-- The text is a network that contains the address, or the address itself. -/
def Denotes (s : List Char) (x : IP) : Prop :=
  (∃ network, Go.parseCIDR s = some network ∧ network.contains x = true)
    ∨ ∃ ip, Go.parseIP s = some ip ∧ ip.equal x = true

/-- The two words of the line denote the two addresses. -/
def LineAllows (line : List Char) (src dst : IP) : Prop :=
  ∃ s d, Go.fields line = [s, d] ∧ Denotes s src ∧ Denotes d dst

theorem contains_slash_iff {s : List Char} : Go.contains s ['/'] = true ↔ '/' ∈ s := by
  rw [Go.contains, decide_eq_true_iff, List.singleton_infix_iff]

theorem parseIP_eq_none_of_mem {s : List Char} (h : '/' ∈ s) : Go.parseIP s = none := by
  by_contra hne
  obtain ⟨ip, hip⟩ := Option.ne_none_iff_exists'.mp hne
  exact absurd (Go.parseIP_chars hip '/' h) (by decide)

theorem parseCIDR_eq_none_of_not_mem {s : List Char} (h : '/' ∉ s) : Go.parseCIDR s = none := by
  rw [Go.parseCIDR, if_pos h]

/-- A side of a rule matches what its text denotes. -/
theorem matchesEndpoint_of_parseEndpoint {side : String} {s : List Char} {network : Option IPNet}
    {ip : IP} (h : parseEndpoint side s = .ok (network, ip)) (x : IP) :
    Firewall.matchesEndpoint network ip x = true ↔ Denotes s x := by
  rw [parseEndpoint] at h
  by_cases hslash : '/' ∈ s
  · rw [if_pos (contains_slash_iff.mpr hslash)] at h
    rcases hparse : Go.parseCIDR s with _ | n
    · rw [hparse] at h
      cases h
    · rw [hparse] at h
      cases h
      simp [Denotes, hparse, parseIP_eq_none_of_mem hslash, Firewall.matchesEndpoint]
  · rw [if_neg (contains_slash_iff.not.mpr hslash)] at h
    rcases hparse : Go.parseIP s with _ | y
    · rw [hparse] at h
      cases h
    · rw [hparse] at h
      cases h
      simp [Denotes, hparse, parseCIDR_eq_none_of_not_mem hslash, Firewall.matchesEndpoint]

theorem parseRule_ok {s d : List Char} {rule : FirewallRule} (h : parseRule s d = .ok rule) :
    parseEndpoint "source" s = .ok (rule.sourceNetwork, rule.sourceIP)
      ∧ parseEndpoint "destination" d = .ok (rule.destNetwork, rule.destIP) := by
  rw [parseRule] at h
  rcases hs : parseEndpoint "source" s with err | source
  · rw [hs] at h
    cases h
  rcases hd : parseEndpoint "destination" d with err | dest
  · rw [hs, hd] at h
    cases h
  rw [hs, hd] at h
  cases h
  exact ⟨rfl, rfl⟩

theorem not_denotes_comment (s : List Char) (x : IP) : ¬Denotes ('#' :: s) x := by
  rintro (⟨network, hparse, -⟩ | ⟨ip, hparse, -⟩)
  · rw [Go.parseCIDR] at hparse
    split_ifs at hparse with hslash
    have haddr : (Go.cut '/' ('#' :: s)).1 = '#' :: (Go.cut '/' s).1 := by
      rw [Go.cut, List.takeWhile_cons_of_pos (by decide)]
      rfl
    have hnone : Go.parseIP (Go.cut '/' ('#' :: s)).1 = none := by
      by_contra hne
      obtain ⟨ip, hip⟩ := Option.ne_none_iff_exists'.mp hne
      rw [haddr] at hip
      exact absurd (Go.parseIP_chars hip '#' List.mem_cons_self) (by decide)
    simp [hnone] at hparse
  · exact absurd (Go.parseIP_chars hparse '#' List.mem_cons_self) (by decide)

theorem Skipped.not_lineAllows {line : List Char} (h : Skipped line) (src dst : IP) :
    ¬LineAllows line src dst := by
  rintro ⟨s, d, hfields, hs, -⟩
  rw [← Go.fields_trimText] at hfields
  rcases h with hblank | hcomment
  · rw [hblank] at hfields
    cases hfields
  · rcases htrim : Go.trimText line with _ | ⟨c, t⟩
    · rw [htrim] at hcomment
      cases hcomment
    · rw [htrim] at hcomment hfields
      cases hcomment
      obtain ⟨u, rest, hsplit⟩ := Go.exists_splitFields (List.cons_ne_nil '#' []) t
      have hfirst : Go.fields ('#' :: t) = ('#' :: u) :: rest := hsplit
      rw [hfirst] at hfields
      cases hfields
      exact not_denotes_comment u src hs

theorem parseRule_of_lineRule {line : List Char} {rule : FirewallRule}
    (h : lineRule line = .ok (some rule)) :
    ∃ s d, Go.fields line = [s, d] ∧ parseRule s d = .ok rule := by
  rw [lineRule] at h
  split_ifs at h with hskip
  · cases h
  rw [Go.fields_trimText] at h
  split at h
  · rename_i s d hfields
    rcases hrule : parseRule s d with err | rule'
    · rw [hrule] at h
      cases h
    · rw [hrule] at h
      cases h
      exact ⟨s, d, hfields, hrule⟩
  · cases h

theorem lineAllows_iff {line : List Char} {rule : FirewallRule}
    (h : lineRule line = .ok (some rule)) (src dst : IP) :
    (Firewall.matchesSource rule src && Firewall.matchesDest rule dst) = true
      ↔ LineAllows line src dst := by
  obtain ⟨s, d, hfields, hrule⟩ := parseRule_of_lineRule h
  obtain ⟨hs, hd⟩ := parseRule_ok hrule
  rw [Bool.and_eq_true, Firewall.matchesSource, Firewall.matchesDest,
    matchesEndpoint_of_parseEndpoint hs, matchesEndpoint_of_parseEndpoint hd]
  refine ⟨fun hmatch ↦ ⟨s, d, hfields, hmatch⟩, ?_⟩
  rintro ⟨s', d', hfields', hmatch⟩
  rw [hfields] at hfields'
  cases hfields'
  exact hmatch

theorem skipped_of_lineRule {line : List Char} (h : lineRule line = .ok none) : Skipped line := by
  rw [lineRule] at h
  split_ifs at h with hskip
  · exact hskip
  · split at h
    · split at h <;> cases h
    · cases h

/-- The text is an address or a network. -/
def IsEndpoint (s : List Char) : Prop :=
  (∃ network, Go.parseCIDR s = some network) ∨ ∃ ip, Go.parseIP s = some ip

/-- A line of two words, each an address or a network. -/
def IsRule (line : List Char) : Prop :=
  ∃ s d, Go.fields line = [s, d] ∧ IsEndpoint s ∧ IsEndpoint d

theorem exists_parseEndpoint_iff (side : String) {s : List Char} :
    (∃ e, parseEndpoint side s = .ok e) ↔ IsEndpoint s := by
  rw [parseEndpoint, IsEndpoint]
  by_cases hslash : '/' ∈ s
  · rw [if_pos (contains_slash_iff.mpr hslash), parseIP_eq_none_of_mem hslash]
    rcases Go.parseCIDR s with _ | n <;> simp
  · rw [if_neg (contains_slash_iff.not.mpr hslash), parseCIDR_eq_none_of_not_mem hslash]
    rcases Go.parseIP s with _ | ip <;> simp

theorem exists_parseRule_iff {s d : List Char} :
    (∃ rule, parseRule s d = .ok rule) ↔ IsEndpoint s ∧ IsEndpoint d := by
  rw [← exists_parseEndpoint_iff "source", ← exists_parseEndpoint_iff "destination", parseRule]
  rcases parseEndpoint "source" s with err | source <;>
    rcases parseEndpoint "destination" d with err | dest <;> simp

theorem exists_lineRule_iff {line : List Char} :
    (∃ r, lineRule line = .ok r) ↔ Skipped line ∨ IsRule line := by
  rw [lineRule]
  by_cases hskip : Skipped line
  · simp [hskip]
  rw [if_neg hskip, Go.fields_trimText]
  split
  · rename_i s d hfields
    have hrule : IsRule line ↔ ∃ rule, parseRule s d = .ok rule := by
      rw [exists_parseRule_iff, IsRule]
      simp [hfields]
    rw [hrule]
    rcases parseRule s d with err | rule <;> simp [hskip]
  · rename_i hfields
    have hnot : ¬IsRule line := fun ⟨s, d, h, _⟩ ↦ hfields s d h
    simp [hskip, hnot]

/-! ## The loop -/

theorem loadLines_error {n : ℕ} {rules : List FirewallRule} {lines : List (List Char)}
    {err : String} (h : loadLines n rules lines = .error err) :
    ∃ before line after reason, lines = before ++ line :: after
      ∧ (∀ l ∈ before, ∃ r, lineRule l = .ok r) ∧ lineRule line = .error reason
      ∧ err = lineError (n + before.length + 1) reason := by
  induction lines generalizing n rules with
  | nil => cases h
  | cons line lines ih =>
    rw [loadLines] at h
    rcases hline : lineRule line with reason | r
    · rw [hline] at h
      cases h
      exact ⟨[], line, lines, reason, rfl, by simp, hline, rfl⟩
    · -- with or without a rule, the fault is in the rest
      have hrest : ∃ rules', loadLines (n + 1) rules' lines = .error err := by
        rcases r with _ | rule <;> rw [hline] at h <;> exact ⟨_, h⟩
      obtain ⟨rules', hrest⟩ := hrest
      obtain ⟨before, bad, after, reason, rfl, hgood, hbad, rfl⟩ := ih hrest
      refine ⟨line :: before, bad, after, reason, rfl, ?_, hbad, ?_⟩
      · exact List.forall_mem_cons.mpr ⟨⟨r, hline⟩, hgood⟩
      · rw [List.length_cons, Nat.add_right_comm n 1, Nat.add_assoc n]

theorem loadLines_ok {n : ℕ} {rules out : List FirewallRule} {lines : List (List Char)}
    (h : loadLines n rules lines = .ok out) :
    (∀ line ∈ lines, ∃ r, lineRule line = .ok r)
      ∧ out = rules ++ lines.filterMap fun line ↦ (lineRule line).toOption.join := by
  induction lines generalizing n rules with
  | nil =>
    cases h
    exact ⟨by simp, by simp⟩
  | cons line lines ih =>
    rw [loadLines] at h
    rcases hline : lineRule line with reason | r
    · rw [hline] at h
      cases h
    · rw [hline] at h
      rcases r with _ | rule
      · obtain ⟨hgood, rfl⟩ := ih h
        refine ⟨List.forall_mem_cons.mpr ⟨⟨none, hline⟩, hgood⟩, ?_⟩
        rw [List.filterMap_cons, hline]
        rfl
      · obtain ⟨hgood, rfl⟩ := ih h
        refine ⟨List.forall_mem_cons.mpr ⟨⟨some rule, hline⟩, hgood⟩, ?_⟩
        rw [List.filterMap_cons, hline, List.append_assoc]
        rfl

theorem mem_of_loadLines {n : ℕ} {rules : List FirewallRule} {lines : List (List Char)}
    (h : loadLines n [] lines = .ok rules) (rule : FirewallRule) :
    rule ∈ rules ↔ ∃ line ∈ lines, lineRule line = .ok (some rule) := by
  obtain ⟨hgood, rfl⟩ := loadLines_ok h
  rw [List.nil_append, List.mem_filterMap]
  refine exists_congr fun line ↦ and_congr_right fun hline ↦ ?_
  obtain ⟨r, hr⟩ := hgood line hline
  simp [hr, Except.toOption]

theorem isAllowed_of_loadLines {n : ℕ} {rules : List FirewallRule} {lines : List (List Char)}
    (h : loadLines n [] lines = .ok rules) (src dst : IP) :
    (Firewall.mk rules).isAllowed src dst = true
      ↔ (∀ line ∈ lines, Skipped line) ∨ ∃ line ∈ lines, LineAllows line src dst := by
  have hgood := (loadLines_ok h).1
  have hmem := mem_of_loadLines h
  rw [Firewall.isAllowed]
  split_ifs with hnil
  · refine iff_of_true rfl (Or.inl fun line hline ↦ ?_)
    obtain ⟨r, hr⟩ := hgood line hline
    rcases r with _ | rule
    · exact skipped_of_lineRule hr
    · obtain rfl : rules = [] := hnil
      exact absurd ((hmem rule).mpr ⟨line, hline, hr⟩) List.not_mem_nil
  · obtain ⟨rule, hrule⟩ := List.exists_mem_of_ne_nil _ hnil
    obtain ⟨line, hline, hr⟩ := (hmem rule).mp hrule
    rw [List.any_eq_true]
    constructor
    · rintro ⟨rule', hrule', hmatch⟩
      obtain ⟨line', hline', hr'⟩ := (hmem rule').mp hrule'
      exact Or.inr ⟨line', hline', (lineAllows_iff hr' src dst).mp hmatch⟩
    · rintro (hskip | ⟨line', hline', hallows⟩)
      · have hnone : lineRule line = .ok none := by rw [lineRule, if_pos (hskip line hline)]
        rw [hnone] at hr
        cases hr
      · obtain ⟨r', hr'⟩ := hgood line' hline'
        rcases r' with _ | rule'
        · exact absurd hallows ((skipped_of_lineRule hr').not_lineAllows src dst)
        · exact ⟨rule', (hmem rule').mpr ⟨line', hline', hr'⟩,
            (lineAllows_iff hr' src dst).mpr hallows⟩

/-! ## Files -/

theorem trimText_dropCR (line : List Char) : Go.trimText (Go.dropCR line) = Go.trimText line := by
  rw [Go.dropCR]
  split_ifs with hlast
  · obtain ⟨l, rfl⟩ := List.getLast?_eq_some_iff.mp hlast
    rw [List.dropLast_concat, Go.trimText, Go.trimText, List.dropWhile_append]
    split_ifs with hnil
    · rw [List.isEmpty_iff.mp hnil, List.dropWhile_cons_of_pos (by decide)]
      rfl
    · rw [List.rdropWhile_concat_pos _ _ _ (by decide)]
  · rfl

theorem lineRule_dropCR (line : List Char) : lineRule (Go.dropCR line) = lineRule line := by
  have hiff : Skipped (Go.dropCR line) ↔ Skipped line := by rw [Skipped, Skipped, trimText_dropCR]
  rw [lineRule, lineRule]
  by_cases hskip : Skipped line
  · rw [if_pos hskip, if_pos (hiff.mpr hskip)]
  · rw [if_neg hskip, if_neg (hiff.not.mpr hskip), trimText_dropCR]

theorem loadLines_dropCR (n : ℕ) (rules : List FirewallRule) (lines : List (List Char)) :
    loadLines n rules (lines.map Go.dropCR) = loadLines n rules lines := by
  induction lines generalizing n rules with
  | nil => rfl
  | cons line lines ih =>
    rw [List.map_cons, loadLines, loadLines, lineRule_dropCR]
    simp only [ih]

namespace RulesFile

variable {file : RulesFile}

/-- The lines in front of the first that is too long. -/
def scanned (file : RulesFile) : List (List Char) :=
  file.lines.takeWhile fun line ↦ Go.byteLength line < Go.maxScanTokenSize

theorem scanned_eq_lines (h : ∀ line ∈ file.lines, ¬TooLong line) : file.scanned = file.lines :=
  List.takeWhile_eq_self_iff.mpr fun line hline ↦ decide_eq_true (Nat.not_le.mp (h line hline))

theorem loadFromFile_eq (file : RulesFile) : loadFromFile (.ok file)
    = match loadLines 0 [] file.scanned with
      | .error err => .error err
      | .ok rules =>
        match file.scanErr with
        | some err => .error ("error reading firewall rules: " ++ err)
        | none => .ok ⟨rules⟩ := by
  rw [loadFromFile, Go.scanLines, loadLines_dropCR]
  rfl

theorem scanErr_eq_none_iff :
    file.scanErr = none ↔ file.readErr = none ∧ ∀ line ∈ file.lines, ¬TooLong line := by
  rw [scanErr]
  split_ifs with h
  · obtain ⟨line, hmem, hlong⟩ := h
    exact ⟨nofun, fun hnone ↦ absurd hlong (hnone.2 line hmem)⟩
  · exact ⟨fun hread ↦ ⟨hread, fun line hmem hlong ↦ h ⟨line, hmem, hlong⟩⟩, And.left⟩

theorem loadLines_of_loadFromFile {fw : Firewall} (h : loadFromFile (.ok file) = .ok fw) :
    file.scanErr = none ∧ loadLines 0 [] file.lines = .ok fw.rules := by
  rw [file.loadFromFile_eq] at h
  rcases hload : loadLines 0 [] file.scanned with err | rules
  · rw [hload] at h
    cases h
  rcases hscan : file.scanErr with _ | cause
  · rw [hload, hscan] at h
    cases h
    rw [scanned_eq_lines (scanErr_eq_none_iff.mp hscan).2] at hload
    exact ⟨rfl, hload⟩
  · rw [hload, hscan] at h
    cases h

/-- The error names the first line that cannot be read. -/
def FirstFault (file : RulesFile) (err : String) : Prop :=
  ∃ before line after reason, file.lines = before ++ line :: after
    ∧ (∀ l ∈ before, Skipped l ∨ IsRule l) ∧ ¬(Skipped line ∨ IsRule line)
    ∧ err = lineError (before.length + 1) reason

theorem firstFault_of_loadLines {err : String} (h : loadLines 0 [] file.scanned = .error err) :
    file.FirstFault err := by
  obtain ⟨before, line, after, reason, hsplit, hgood, hbad, rfl⟩ := loadLines_error h
  obtain ⟨rest, hrest⟩ : file.scanned <+: file.lines := List.takeWhile_prefix _
  refine ⟨before, line, after ++ rest, reason, ?_, ?_, ?_, by rw [Nat.zero_add]⟩
  · rw [← hrest, hsplit, List.append_assoc, List.cons_append]
  · exact fun l hl ↦ exists_lineRule_iff.mp (hgood l hl)
  · rw [← exists_lineRule_iff, hbad]
    simp

end RulesFile

/-- **What a file of rules means.** It loads exactly if it can be read to its end, no line is too
long, and every line is blank, a comment or a rule; then a source may reach a destination exactly if
some line allows it, or no line is a rule. If it does not load, the error names the first line that
is at fault, or is that of the reading. -/
theorem rules_file_decides (file : RulesFile) :
    (file.readErr = none
        ∧ (∀ line ∈ file.lines, ¬RulesFile.TooLong line ∧ (Skipped line ∨ IsRule line))
        ∧ ∃ fw, loadFromFile (.ok file) = .ok fw
          ∧ ∀ src dst, fw.isAllowed src dst = true
            ↔ (∀ line ∈ file.lines, Skipped line) ∨ ∃ line ∈ file.lines, LineAllows line src dst)
      ∨ ∃ err, loadFromFile (.ok file) = .error err
        ∧ (file.FirstFault err
          ∨ ∃ cause, file.scanErr = some cause
            ∧ err = "error reading firewall rules: " ++ cause) := by
  rcases hfile : loadFromFile (.ok file) with err | fw
  · refine Or.inr ⟨err, rfl, ?_⟩
    rw [file.loadFromFile_eq] at hfile
    rcases hload : loadLines 0 [] file.scanned with err' | rules
    · rw [hload] at hfile
      cases hfile
      exact Or.inl (RulesFile.firstFault_of_loadLines hload)
    · rcases hscan : file.scanErr with _ | cause
      · rw [hload, hscan] at hfile
        cases hfile
      · rw [hload, hscan] at hfile
        cases hfile
        exact Or.inr ⟨cause, rfl, rfl⟩
  · obtain ⟨hscan, hload⟩ := RulesFile.loadLines_of_loadFromFile hfile
    obtain ⟨hread, hshort⟩ := RulesFile.scanErr_eq_none_iff.mp hscan
    refine Or.inl ⟨hread, fun line hline ↦ ⟨hshort line hline, ?_⟩, fw, rfl, fun src dst ↦ ?_⟩
    · exact exists_lineRule_iff.mp ((loadLines_ok hload).1 line hline)
    · exact isAllowed_of_loadLines hload src dst

end TaskDiscovery
