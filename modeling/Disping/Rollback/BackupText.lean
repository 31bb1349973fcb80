import Disping.Text.JsonGrammar
import Disping.Rollback.Snapshot

/-! # The backup file as a JSON document

Every entry repeats the profile key with its backslashes as they are, and a JSON string cannot
hold a backslash before an `M`. So no reader accepts the file, whatever the two values are.
-/
namespace Disping.Rollback

open Hive Host Tweaks Text

variable {env : Environment} {w : World}

def fileChars (text : TextFile) : List Char := text.flatMap fun line => line.toList ++ ['\n']

/-- One entry of a backup. -/
structure BackupEntry where
  key : String
  name : String
  value : BitVec 32

def BackupEntry.json (e : BackupEntry) : Json :=
  .object [(unitsOf "key".toList, .string (unitsOf e.key.toList)),
    (unitsOf "name".toList, .string (unitsOf e.name.toList)),
    (unitsOf "value".toList, .number e.value.toNat)]

/-- The file is a JSON document with exactly these entries after its time stamp. -/
def RecordsEntries (file : String) (entries : List BackupEntry) (w : World) : Prop :=
  ∃ text stamp, w.files file = some text ∧ Json.Document (fileChars text)
    (.object [(unitsOf "timestamp".toList, .string stamp),
      (unitsOf "entries".toList, .array (entries.map BackupEntry.json))])

def profileEntries (throttle resp : BitVec 32) : List BackupEntry :=
  [⟨profileKey, "NetworkThrottlingIndex", throttle⟩, ⟨profileKey, "SystemResponsiveness", resp⟩]

/-! The text. -/

/-- A line with a quoted bare text that runs into a backslash and no letter for it. -/
def BadLine (line : String) : Prop :=
  ∃ s t t' c, line.toList = s ++ '"' :: t ++ '\\' :: c :: t' ∧ Json.Bare t ∧
    ¬ ((Json.shortEscape c).isSome ∨ c = 'u')

theorem not_document_of_badLine {text : TextFile} {line : String} (hline : line ∈ text)
    (hbad : BadLine line) (v : Json) : ¬ Json.Document (fileChars text) v := by
  obtain ⟨before, after, rfl⟩ := List.append_of_mem hline
  obtain ⟨s, t, t', c, hchars, ht, hc⟩ := hbad
  have hsplit : fileChars (before ++ line :: after) =
      (fileChars before ++ s) ++ '"' :: t ++ '\\' :: c :: (t' ++ '\n' :: fileChars after) := by
    simp only [fileChars, List.flatMap_append, List.flatMap_cons, hchars, List.append_assoc,
      List.cons_append, List.nil_append]
  rw [hsplit]
  exact Json.not_document ht hc v

theorem not_recordsEntries {file : String} {text : TextFile} (hfile : w.files file = some text)
    (hbad : ∃ line ∈ text, BadLine line) (entries : List BackupEntry) :
    ¬ RecordsEntries file entries w := by
  rintro ⟨text', stamp, hfile', hdocument⟩
  have htext : text = text' := Option.some.inj (hfile.symm.trans hfile')
  obtain ⟨line, hline, hbad⟩ := hbad
  rw [htext] at hline
  exact not_document_of_badLine hline hbad _ hdocument

/-- The first backslash of the profile key stands before an `M`. -/
theorem badLine_profileKey (tail : String) :
    BadLine ("    \x7b\"key\": \"" ++ profileKey ++ tail) := by
  obtain ⟨front, hfront⟩ : ∃ front, "    \x7b\"key\": \"".toList = front ++ ['"'] :=
    ⟨[' ', ' ', ' ', ' ', '\x7b', '"', 'k', 'e', 'y', '"', ':', ' '], toList_literal rfl⟩
  obtain ⟨rest, hkey⟩ : ∃ rest, profileKey.toList =
      ['S', 'O', 'F', 'T', 'W', 'A', 'R', 'E'] ++ '\\' :: 'M' :: rest := ⟨_, toList_literal rfl⟩
  refine ⟨front, ['S', 'O', 'F', 'T', 'W', 'A', 'R', 'E'], rest ++ tail.toList, 'M', ?_, by decide,
    by decide⟩
  rw [String.toList_append, String.toList_append, hfront, hkey]
  simp only [List.append_assoc, List.cons_append, List.nil_append]

theorem snapshot_badLine (stamp : String) (throttle resp : BitVec 32) :
    ∃ line ∈ snapshot stamp throttle resp, BadLine line := by
  refine ⟨_, .tail _ (.tail _ (.tail _ (.head _))), ?_⟩
  rw [String.append_assoc, String.append_assoc]
  exact badLine_profileKey _

set_option maxRecDepth 2000 in
theorem rollbackScript_badLine : ∃ line ∈ rollbackScript, BadLine line := by
  refine ⟨rollbackScript[14], List.getElem_mem _, ?_⟩
  exact ⟨['r', 'e', 'g', ' ', 'a', 'd', 'd', ' '], ['H', 'K', 'L', 'M'], _, 'S', toList_literal rfl,
    by decide, by decide⟩

/-! The run. -/

theorem generateRollbackScript_file {script file : String} {P : TextFile → Prop}
    (hfile : ∃ text, w.files file = some text ∧ P text) (hscript : P rollbackScript) :
    ∃ text, (generateRollbackScript script env w).2.files file = some text ∧ P text := by
  have hreport : (generateRollbackScript script env w).2 = (writeFile script rollbackScript env w).2 := by
    rw [generateRollbackScript, bind_run]
    split <;> rfl
  rw [hreport, writeFile, bind_run]
  by_cases hopened : (call env w).1 = true
  · rw [if_pos hopened]
    by_cases hname : file = script
    · rw [hname]
      exact ⟨rollbackScript, Function.update_self .., hscript⟩
    · obtain ⟨text, htext, hP⟩ := hfile
      exact ⟨text, (Function.update_of_ne hname ..).trans htext, hP⟩
  · rw [if_neg hopened]
    exact hfile

/-- A backup that reports success has left a snapshot, or the script when both have one name. -/
theorem createBackup_file {backup : String}
    (hwritten : (createBackup backup env w).1.success = true) :
    ∃ text, (createBackup backup env w).2.files backup = some text ∧
      ((∃ throttle resp, text = snapshot env.buildStamp throttle resp) ∨ text = rollbackScript) := by
  have hopened : (call env w).1 = true := by
    by_contra hclosed
    rw [createBackup, bind_run, if_neg hclosed] at hwritten
    exact Bool.false_ne_true hwritten
  rw [createBackup, bind_run, if_pos hopened]
  simp only [bind_run, modify_run, ask_run, pure_run]
  exact generateRollbackScript_file ⟨_, Function.update_self .., Or.inl ⟨_, _, rfl⟩⟩ (Or.inr rfl)

/-- A backup that was written is no JSON document, so no entries can be read back from it. -/
theorem createBackup_unreadable {backup : String} (throttle resp : BitVec 32)
    (hwritten : (createBackup backup env w).1.success = true) :
    (∃ text, (createBackup backup env w).2.files backup = some text ∧
      ∀ v, ¬ Json.Document (fileChars text) v) ∧
      ¬ RecordsEntries backup (profileEntries throttle resp) (createBackup backup env w).2 := by
  obtain ⟨text, hfile, htext⟩ := createBackup_file hwritten
  have hbad : ∃ line ∈ text, BadLine line := by
    rcases htext with ⟨throttle, resp, rfl⟩ | rfl
    · exact snapshot_badLine env.buildStamp throttle resp
    · exact rollbackScript_badLine
  refine ⟨⟨text, hfile, ?_⟩, not_recordsEntries hfile hbad _⟩
  obtain ⟨line, hline, hbad⟩ := hbad
  exact not_document_of_badLine hline hbad

theorem defaults_unreadable :
    (∃ text, (createBackup backupPath adminEnvironment (worldWith .empty)).2.files backupPath =
        some text ∧ ∀ v, ¬ Json.Document (fileChars text) v) ∧
      ¬ RecordsEntries backupPath (profileEntries 10 20)
        (createBackup backupPath adminEnvironment (worldWith .empty)).2 :=
  createBackup_unreadable 10 20 rfl

/-- A registry with the Windows defaults written out. -/
def registryWithDefaults : Registry :=
  (Registry.empty.apply ⟨profileKey, "NetworkThrottlingIndex", regDword 10⟩).apply
    ⟨profileKey, "SystemResponsiveness", regDword 20⟩

theorem registryWithDefaults_find :
    registryWithDefaults.find profileKey "NetworkThrottlingIndex" = some (regDword 10) ∧
      registryWithDefaults.find profileKey "SystemResponsiveness" = some (regDword 20) := by
  have hnames : fold "NetworkThrottlingIndex" ≠ fold "SystemResponsiveness" := by
    rw [fold_literal (s := "NetworkThrottlingIndex") rfl, fold_literal (s := "SystemResponsiveness") rfl]
    decide
  unfold registryWithDefaults
  constructor
  · rw [Registry.find_apply_of_ne _ hnames, Registry.find_apply]
  · rw [Registry.find_apply]

/-- The backup of that registry is one that no JSON reader accepts. -/
theorem not_createBackup_records : ¬ ∀ (env : Environment) (backup : String) (w : World)
    (throttle resp : BitVec 32), env.AllSucceed →
      w.registry.find profileKey "NetworkThrottlingIndex" = some (regDword throttle) →
      w.registry.find profileKey "SystemResponsiveness" = some (regDword resp) →
      RecordsEntries backup (profileEntries throttle resp) (createBackup backup env w).2 := by
  intro hall
  have hok : adminEnvironment.AllSucceed := fun _ => rfl
  have hfind := registryWithDefaults_find
  rw [← worldWith_registry registryWithDefaults] at hfind
  have hclaimed := hall adminEnvironment backupPath (worldWith registryWithDefaults) 10 20 hok
    hfind.1 hfind.2
  obtain ⟨-, hrun⟩ := createBackup_run hok (worldWith registryWithDefaults)
  exact not_recordsEntries hrun (snapshot_badLine _ _ _) _ hclaimed

end Disping.Rollback
