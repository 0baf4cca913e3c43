import KerberizedMikey.CLib.Shell
import KerberizedMikey.TestSuite.Bench

/-!
# The command line of client_exec

The test programs start a client by a command that `client_exec` writes into `BUFSIZ` bytes
and gives to the shell.  The models of the benches run the clients on arguments; these are
the ones that the shell takes from the command:

    paths of plain characters that fit their arrays  →  the client has the arguments of
                                                        `ksm1` or `ksm2`  (client_exec_args)

so nothing of a command is cut off, and no argument becomes two.
-/

namespace KerberizedMikey

open CLib

/-! ## The source -/

/-- `cache_filepath[1024]` in the tests: `"%s/%s%d.cache"`. -/
def cacheBuffer (stack : Bytes) (runtimeDir baseClientName : Bytes) (cid : Nat) : Bytes :=
  snprintf stack 1024 (cacheFilepath runtimeDir baseClientName cid)

/-- `group_name[1024]`: `"group%d"`. -/
def groupBuffer (stack : Bytes) (group : Nat) : Bytes := snprintf stack 1024 (groupName group)

/-- The format of `client_exec` with its arguments. -/
def clientExecText (ksm : Nat) (exe groupName cacheFilepath timeLog generalLog : Bytes) :
    Bytes :=
  if ksm = 2 then
    exe ++ ascii " LOCALHOST " ++ groupName ++ ascii " " ++ cacheFilepath ++ ascii " " ++
      timeLog ++ ascii " >> " ++ generalLog ++ ascii " "
  else
    exe ++ ascii " LOCALHOST " ++ fmtInt 7777 ++ ascii " ksm1_gcks1 " ++ groupName ++
      ascii " " ++ cacheFilepath ++ ascii " " ++ timeLog ++ ascii " >> " ++ generalLog ++
      ascii " "

/-- `KSM2_BASE_CLIENT_NAME` or `KSM1_BASE_CLIENT_NAME`. -/
def baseClientName (ksm : Nat) : Bytes :=
  if ksm = 2 then ascii "ksm2_test_client" else ascii "ksm1_test_client"

/-- What the shell makes of `shell_command`, from the blocks of the arrays. -/
def shellCommand (ksm : Nat) (stack stack' stack'' : Bytes)
    (exe runtimeDir timeLog generalLog : Bytes) (client group : Nat) :
    Except Fault (Option (List Bytes × Option Bytes)) := do
  let cacheFilepath ← cstr (cacheBuffer stack runtimeDir (baseClientName ksm) client)
  let groupName ← cstr (groupBuffer stack' group)
  let command ← cstr (snprintf stack'' bufsiz
    (clientExecText ksm exe groupName cacheFilepath timeLog generalLog))
  return sh command

/-- The arguments of a run in the bench. -/
def clientArgs (ksm : Nat) (runtimeDir timeLog : Bytes) (client group : Nat) : List Bytes :=
  let cache := cacheFilepath runtimeDir (baseClientName ksm) client
  if ksm = 2 then [ascii "LOCALHOST", groupName group, cache, timeLog]
  else [ascii "LOCALHOST", fmtInt 7777, ascii "ksm1_gcks1", groupName group, cache, timeLog]

/-- The paths of `test.h` and of the test: plain words that leave room in the arrays. -/
structure TestPaths where
  exe : Bytes
  runtimeDir : Bytes
  timeLog : Bytes
  generalLog : Bytes
  slash : 47 ∈ exe
  plain : ∀ w ∈ [exe, runtimeDir, timeLog, generalLog], IsPlainWord w
  short : ∀ w ∈ [exe, runtimeDir, timeLog, generalLog], w.length ≤ 900

/-! ## The words -/

theorem isPlain_of_isDigit {b : UInt8} (h : isDigit b = true) : isPlain b = true := by
  rw [isDigit_iff] at h
  simp only [isPlain, Bool.or_eq_true, Bool.and_eq_true, decide_eq_true_eq, UInt8.le_iff_toNat_le]
  refine .inl (.inr ⟨?_, h.2⟩)
  show 45 ≤ b.toNat
  omega

theorem isPlain_of_mem_fmtInt {n : Nat} {b : UInt8} (h : b ∈ fmtInt n) : isPlain b = true := by
  rcases mem_fmtInt h with rfl | h
  · decide
  · exact isPlain_of_isDigit h

theorem isPlainWord_groupName (n : Nat) : IsPlainWord (groupName n) :=
  isPlainWord_append (by decide) fun _ => isPlain_of_mem_fmtInt

theorem isPlainWord_cacheFilepath {runtimeDir : Bytes} (h : IsPlainWord runtimeDir)
    (ksm client : Nat) :
    IsPlainWord (cacheFilepath runtimeDir (baseClientName ksm) client) := by
  have hname : (baseClientName ksm).all isPlain = true := by
    unfold baseClientName
    split <;> decide
  have hslash : (ascii "/").all isPlain = true := by decide
  have hcache : (ascii ".cache").all isPlain = true := by decide
  apply isPlainWord_append _ (List.all_eq_true.mp hcache)
  apply isPlainWord_append _ fun _ => isPlain_of_mem_fmtInt
  apply isPlainWord_append _ (List.all_eq_true.mp hname)
  exact isPlainWord_append h (List.all_eq_true.mp hslash)

/-- A number that is an `int`. -/
theorem length_fmtInt_int {n : Nat} (h : n < 2 ^ 31) : (fmtInt n).length ≤ 20 :=
  length_fmtInt_le (by omega) (by omega)

theorem length_groupName {n : Nat} (h : n < 2 ^ 31) : (groupName n).length ≤ 25 := by
  have := length_fmtInt_int h
  rw [groupName, List.length_append]
  show 5 + _ ≤ 25
  omega

theorem length_cacheFilepath {runtimeDir : Bytes} (hdir : runtimeDir.length ≤ 900) (ksm : Nat)
    {client : Nat} (h : client < 2 ^ 31) :
    (cacheFilepath runtimeDir (baseClientName ksm) client).length ≤ 943 := by
  have := length_fmtInt_int h
  have hname : (baseClientName ksm).length = 16 := by
    unfold baseClientName
    split <;> decide
  simp only [cacheFilepath, List.length_append, hname]
  show _ + 1 + 16 + _ + 6 ≤ 943
  omega

/-! ## The command -/

/-- The text is a written command. -/
theorem clientExecText_eq (ksm : Nat) (exe groupName cacheFilepath timeLog generalLog : Bytes) :
    clientExecText ksm exe groupName cacheFilepath timeLog generalLog =
      (appendCommand (exe :: if ksm = 2 then [ascii "LOCALHOST", groupName, cacheFilepath, timeLog]
        else [ascii "LOCALHOST", fmtInt 7777, ascii "ksm1_gcks1", groupName, cacheFilepath,
          timeLog]) generalLog).flatMap ShToken.written := by
  by_cases h : ksm = 2 <;> simp [clientExecText, appendCommand, h, ShToken.written, ascii]

theorem length_clientExecText_le (ksm : Nat)
    (exe groupName cacheFilepath timeLog generalLog : Bytes) :
    (clientExecText ksm exe groupName cacheFilepath timeLog generalLog).length ≤
      exe.length + groupName.length + cacheFilepath.length + timeLog.length + generalLog.length +
        60 := by
  have h7777 : (fmtInt 7777).length = 4 := by decide
  unfold clientExecText
  split
  · simp only [List.length_append]
    show _ + 11 + _ + 1 + _ + 1 + _ + 4 + _ + 1 ≤ _
    omega
  · simp only [List.length_append, h7777]
    show _ + 11 + 4 + 12 + _ + 1 + _ + 1 + _ + 4 + _ + 1 ≤ _
    omega

/-- The arguments are plain words. -/
theorem isPlainWord_clientArgs (p : TestPaths) (ksm client group : Nat) :
    ∀ w ∈ p.exe :: clientArgs ksm p.runtimeDir p.timeLog client group, IsPlainWord w := by
  have hexe : IsPlainWord p.exe := p.plain _ (by simp)
  have hlog : IsPlainWord p.timeLog := p.plain _ (by simp)
  have hcache := isPlainWord_cacheFilepath (p.plain p.runtimeDir (by simp)) ksm client
  have hrealm : IsPlainWord (ascii "LOCALHOST") := by decide
  have hport : IsPlainWord (fmtInt 7777) := by decide
  have hgcks : IsPlainWord (ascii "ksm1_gcks1") := by decide
  have hnil : ∀ w ∈ ([] : List Bytes), IsPlainWord w := by simp
  unfold clientArgs
  split
  · simp only [List.forall_mem_cons]
    exact ⟨hexe, hrealm, isPlainWord_groupName group, hcache, hlog, hnil⟩
  · simp only [List.forall_mem_cons]
    exact ⟨hexe, hrealm, hport, hgcks, isPlainWord_groupName group, hcache, hlog, hnil⟩

/-- The shell's view of the command: nothing is cut off. -/
theorem shellCommand_eq (p : TestPaths) (ksm : Nat) (stack stack' stack'' : Bytes)
    {client group : Nat} (hclient : client < 2 ^ 31) (hgroup : group < 2 ^ 31) :
    shellCommand ksm stack stack' stack'' p.exe p.runtimeDir p.timeLog p.generalLog client group =
      .ok (some (p.exe :: clientArgs ksm p.runtimeDir p.timeLog client group,
        some p.generalLog)) := by
  have hshort : ∀ w ∈ [p.exe, p.runtimeDir, p.timeLog, p.generalLog], w.length ≤ 900 := p.short
  simp only [List.forall_mem_cons] at hshort
  obtain ⟨hexe, hdir, hlog, hgeneral, -⟩ := hshort
  have hcachelen := length_cacheFilepath hdir ksm hclient
  have hgrouplen := length_groupName hgroup
  have hcache : cstr (cacheBuffer stack p.runtimeDir (baseClientName ksm) client) =
      .ok (cacheFilepath p.runtimeDir (baseClientName ksm) client) :=
    cstr_snprintf_of_lt stack
      (isPlainWord_cacheFilepath (p.plain p.runtimeDir (by simp)) ksm client).nul_free (by omega)
  have hname : cstr (groupBuffer stack' group) = .ok (groupName group) :=
    cstr_snprintf_of_lt stack' (isPlainWord_groupName group).nul_free (by omega)
  obtain ⟨text, htext⟩ : ∃ text, clientExecText ksm p.exe (groupName group)
      (cacheFilepath p.runtimeDir (baseClientName ksm) client) p.timeLog p.generalLog = text :=
    ⟨_, rfl⟩
  have hwritten : text = (appendCommand
      (p.exe :: clientArgs ksm p.runtimeDir p.timeLog client group)
      p.generalLog).flatMap ShToken.written := by
    rw [← htext, clientExecText_eq]
    rfl
  have hwords := isPlainWord_clientArgs p ksm client group
  have hfile : IsPlainWord p.generalLog := p.plain _ (by simp)
  have hlen : text.length < bufsiz := by
    have := length_clientExecText_le ksm p.exe (groupName group)
      (cacheFilepath p.runtimeDir (baseClientName ksm) client) p.timeLog p.generalLog
    rw [htext] at this
    show text.length < 8192
    omega
  have h0 : 0 ∉ text := by
    rw [hwritten]
    exact nul_free_written (isPlainWord_of_mem_appendCommand hwords hfile)
  have hcommand : cstr (snprintf stack'' bufsiz text) = .ok text :=
    cstr_snprintf_of_lt stack'' h0 hlen
  simp only [shellCommand, hcache, hname, htext, hcommand, bind, Except.bind]
  rw [hwritten, sh_written p.slash hwords hfile]
  rfl

/-- **The clients get the arguments of the bench.**  Whatever is in the arrays before: the
shell finds the program with its arguments in the command, and appends its output to the
general log; a run of the bench is the run of `main` on these arguments. -/
theorem client_exec_args {ρ : Type} (L : LibMikey ρ) (p : TestPaths) (ksm : Nat)
    (stack stack' stack'' : Bytes) {client group : Nat} (hclient : client < 2 ^ 31)
    (hgroup : group < 2 ^ 31) :
    ∃ args, shellCommand ksm stack stack' stack'' p.exe p.runtimeDir p.timeLog p.generalLog client
        group = .ok (some (p.exe :: args, some p.generalLog)) ∧
      (ksm ≠ 2 → ∀ env cache, (ksm1 L p.runtimeDir p.timeLog).run env client group cache =
        sclient L env.calls env.world args env.input cache (ascii "ksm1_gcks1")) ∧
      (ksm = 2 → ∀ env cache, (ksm2 L p.runtimeDir p.timeLog).run env client group cache =
        sclient2Main L env.calls env.world args env.input cache (groupName group)) := by
  refine ⟨_, shellCommand_eq p ksm stack stack' stack'' hclient hgroup, ?_, ?_⟩
  · intro h env cache
    rw [clientArgs, if_neg h, baseClientName, if_neg h]
    rfl
  · rintro rfl env cache
    rfl

/-- The paths of a test, for sclient2. -/
def test1Paths : TestPaths where
  exe := ascii "/multicast/kmtools/sclient2"
  runtimeDir := ascii "/multicast/bin"
  timeLog := ascii "/multicast/results/test1.dat.tmp"
  generalLog := ascii "/multicast/bin/general_test1.log"
  slash := by decide
  plain := by decide
  short := by decide

/-- The third client joins the first group. -/
theorem client_exec_args_group1 :
    ∃ args, shellCommand 2 (List.replicate 1024 0) (List.replicate 1024 0)
        (List.replicate bufsiz 0) test1Paths.exe test1Paths.runtimeDir test1Paths.timeLog
        test1Paths.generalLog 2 1 =
      .ok (some (test1Paths.exe :: args, some test1Paths.generalLog)) := by
  obtain ⟨args, h, -⟩ := client_exec_args plainMikey test1Paths 2 (List.replicate 1024 0)
    (List.replicate 1024 0) (List.replicate bufsiz 0) (show 2 < 2 ^ 31 by decide)
    (show 1 < 2 ^ 31 by decide)
  exact ⟨args, h⟩

end KerberizedMikey
