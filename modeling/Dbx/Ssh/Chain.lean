import Dbx.Ssh.Config
import Mathlib.Data.List.Chain
import Mathlib.Data.List.Dedup
import Mathlib.Data.List.Perm.Subperm

/-!
# Jump hosts

The entry of an alias may name a jump host, whose entry may name another one. The tunnel goes
through all of them, the outermost first. The walk along the names stops at an alias that it has
seen and at an alias without an entry.

## Main results

* `tunnelsAlongChain_resolve`: the hops are the chain, outermost first, followed by the target
* `firstValue_used_iff`: the first value is used for every alias, and the hops are the chain,
  exactly if for every alias the last value of a field is the first one
-/

namespace Dbx.Ssh

open Text List

/-- `SshTunnelConfig`. -/
structure TunnelConfig where
  id : Text
  name : Text
  enabled : Bool
  host : Text
  port : Nat
  user : Text
  password : Text
  keyPath : Text
  keyPassphrase : Text
  connectTimeoutSecs : Nat
  exposeLan : Bool
  localPort : Option Nat
  useSshAgent : Bool
  sshAgentSockPath : Text
  sshAgentKeyFingerprint : Text
  authMethod : Text
  allowExecChannelProxy : Bool
  proxyCommand : Text
  profileId : Text
  deriving DecidableEq, Repr

/-- The key files: the fingerprint of the public key beside a path, and whether a file is there. -/
structure KeyFiles where
  fingerprint : Text → Option Text
  isFile : Text → Bool

/-- `DEFAULT_USER_SENTINEL`. -/
def defaultUserSentinel : Text := "root".toList

/-- `DEFAULT_PORT_SENTINEL`. -/
def defaultPortSentinel : Nat := 22

/-- `DEFAULT_IDENTITY_FILE_NAMES`, under `~/.ssh`. -/
def defaultIdentityFiles : List Text :=
  ["id_ed25519", "id_ecdsa", "id_ecdsa_sk", "id_rsa"].map fun name => ("~/.ssh/" ++ name).toList

variable (files : KeyFiles) (ssh : TunnelConfig)

/-- `apply_default_identity_file`. -/
def applyDefaultIdentityFile : TunnelConfig :=
  if (trim ssh.keyPath).isEmpty &&
      (ssh.authMethod = "key".toList || ssh.authMethod = "key+password".toList) then
    match defaultIdentityFiles.find? files.isFile with
    | some path => { ssh with keyPath := path }
    | none => ssh
  else ssh

/-- `single_agent_fingerprint`. -/
def singleAgentFingerprint (identityFiles : List Text) : Option Text :=
  match (identityFiles.filterMap files.fingerprint).dedup with
  | [fingerprint] => some fingerprint
  | _ => none

/-- The key of an entry goes to a tunnel without one, and makes it use the key if it has no other
credential. -/
def applyIdentityFile (entry : Entry) : TunnelConfig :=
  match entry.identityFile with
  | some identityFile =>
    if ssh.keyPath.isEmpty then
      { ssh with
        keyPath := identityFile
        authMethod := if ssh.authMethod.isEmpty ||
            (ssh.authMethod = "password".toList && ssh.password.isEmpty) then "key".toList
          else ssh.authMethod }
    else ssh
  | none => ssh

/-- The agent key of an entry that pins its identities goes to a tunnel that uses the agent. -/
def applyFingerprint (entry : Entry) : TunnelConfig :=
  if (trim ssh.sshAgentKeyFingerprint).isEmpty &&
      (ssh.useSshAgent || ssh.authMethod = "agent".toList) && entry.identitiesOnly then
    match singleAgentFingerprint files entry.identityFiles with
    | some fingerprint => { ssh with sshAgentKeyFingerprint := fingerprint }
    | none => ssh
  else ssh

/-- `apply_host_entry`. -/
def applyHostEntry (entry : Entry) : TunnelConfig :=
  let isLegacyPayload := ssh.authMethod.isEmpty
  let resolved := { ssh with
    host := entry.hostName.getD ssh.host
    user := if isLegacyPayload && ssh.user = defaultUserSentinel then entry.user.getD ssh.user
      else ssh.user
    port := if isLegacyPayload && ssh.port = defaultPortSentinel then entry.port.getD ssh.port
      else ssh.port }
  let resolved := applyFingerprint files (applyIdentityFile resolved entry) entry
  if (trim resolved.proxyCommand).isEmpty then
    { resolved with proxyCommand := entry.proxyCommand.getD resolved.proxyCommand }
  else resolved

/-- `jump_hop_from_entry`. -/
def jumpHopFromEntry (leaf : TunnelConfig) (entry : Entry) : TunnelConfig where
  id := leaf.id ++ "::proxyjump::".toList ++ entry.hostAlias
  name := entry.hostAlias
  enabled := true
  host := entry.hostName.getD entry.hostAlias
  port := entry.port.getD defaultPortSentinel
  user := entry.user.getD leaf.user
  password := leaf.password
  keyPath := entry.identityFile.getD leaf.keyPath
  keyPassphrase := leaf.keyPassphrase
  connectTimeoutSecs := leaf.connectTimeoutSecs
  exposeLan := false
  localPort := none
  useSshAgent := leaf.useSshAgent
  sshAgentSockPath := leaf.sshAgentSockPath
  sshAgentKeyFingerprint :=
    if entry.identitiesOnly then (singleAgentFingerprint files entry.identityFiles).getD []
    else leaf.sshAgentKeyFingerprint
  authMethod := leaf.authMethod
  allowExecChannelProxy := leaf.allowExecChannelProxy
  proxyCommand := entry.proxyCommand.getD []
  profileId := []

/-- The loop of `resolve_chain_from_entries`: the entries of the jump hosts, from the target on. -/
def jumpHops (entries : List Entry) : Nat → List Text → Option Text → List Entry
  | 0, _, _ => []
  | _ + 1, _, none => []
  | fuel + 1, seenAliases, some hostAlias =>
    if hostAlias ∈ seenAliases then []
    else
      match find entries hostAlias with
      | none => []
      | some entry => entry :: jumpHops entries fuel (hostAlias :: seenAliases) entry.proxyJump

/-- `resolve_chain_from_entries`. -/
def resolveChainFromEntries (entries : List Entry) : List TunnelConfig :=
  match find entries ssh.host with
  | none => [applyDefaultIdentityFile files ssh]
  | some target =>
    let hops := jumpHops entries (entries.length + 1) [ssh.host] target.proxyJump
    let hops := (hops.map (jumpHopFromEntry files ssh)).reverse ++ [applyHostEntry files ssh target]
    hops.map (applyDefaultIdentityFile files)

/-! ### The chain of jump hosts -/

/-- The entries that the names of jump hosts lead to, one after the other from an entry on: each is
the entry of the alias that the one before names, no alias comes twice, and the last one names no
jump host, one that has come before, or one without an entry. -/
structure IsJumpChain (entries : List Entry) (target : Entry) (hops : List Entry) : Prop where
  names : (target :: hops).IsChain fun entry next => entry.proxyJump = some next.hostAlias
  known : ∀ entry ∈ hops, find entries entry.hostAlias = some entry
  nodup : ((target :: hops).map Entry.hostAlias).Nodup
  cut : ∀ hostAlias ∈ (target :: hops).getLast?.bind Entry.proxyJump,
    hostAlias ∈ (target :: hops).map Entry.hostAlias ∨ find entries hostAlias = none

variable {entries : List Entry}

theorem find_alias {hostAlias : Text} {entry : Entry}
    (h : find entries hostAlias = some entry) : entry.hostAlias = hostAlias := by
  simpa using find?_some h

theorem mem_of_find {hostAlias : Text} {entry : Entry}
    (h : find entries hostAlias = some entry) : hostAlias ∈ entries.map Entry.hostAlias := by
  rw [← find_alias h]
  exact mem_map_of_mem (mem_of_find?_eq_some h)

/-- The walk with enough fuel: it goes along the names, and stops where it must. -/
theorem jumpHops_spec {fuel : Nat} {seen : List Text} {current : Entry}
    (hnodup : seen.Nodup) (hknown : ∀ hostAlias ∈ seen, hostAlias ∈ entries.map Entry.hostAlias)
    (hfuel : entries.length < seen.length + fuel) {hops : List Entry}
    (hhops : jumpHops entries fuel seen current.proxyJump = hops) :
    (current :: hops).IsChain (fun entry next => entry.proxyJump = some next.hostAlias) ∧
      (∀ entry ∈ hops, find entries entry.hostAlias = some entry) ∧
      (hops.map Entry.hostAlias).Nodup ∧ (∀ entry ∈ hops, entry.hostAlias ∉ seen) ∧
      ∀ hostAlias ∈ (current :: hops).getLast?.bind Entry.proxyJump,
        hostAlias ∈ hops.map Entry.hostAlias ∨ hostAlias ∈ seen ∨
          find entries hostAlias = none := by
  induction fuel generalizing seen current hops with
  | zero =>
    -- the aliases seen are different ones with entries, so there is fuel left
    have hle : seen.length ≤ (entries.map Entry.hostAlias).length :=
      (subperm_of_subset hnodup hknown).length_le
    rw [length_map] at hle
    omega
  | succ fuel ih =>
    cases hnext : current.proxyJump with
    | none =>
      rw [hnext, jumpHops] at hhops
      subst hhops
      simp [hnext]
    | some hostAlias =>
      rw [hnext, jumpHops] at hhops
      by_cases hseen : hostAlias ∈ seen
      · subst hhops
        simp [hnext, hseen]
      rw [if_neg hseen] at hhops
      cases hfind : find entries hostAlias with
      | none =>
        subst hhops
        simp [hnext, hfind]
      | some entry =>
        rw [hfind] at hhops
        obtain ⟨rest, hrest⟩ : ∃ rest,
            jumpHops entries fuel (hostAlias :: seen) entry.proxyJump = rest := ⟨_, rfl⟩
        have halias := find_alias hfind
        have hknown' : ∀ name ∈ hostAlias :: seen, name ∈ entries.map Entry.hostAlias :=
          forall_mem_cons.mpr ⟨mem_of_find hfind, hknown⟩
        have hfuel' : entries.length < (hostAlias :: seen).length + fuel := by
          rw [length_cons]
          omega
        obtain ⟨hnames, hentries, hdistinct, hfresh, hcut⟩ :=
          ih (nodup_cons.mpr ⟨hseen, hnodup⟩) hknown' hfuel' hrest
        obtain rfl : entry :: rest = hops := by rw [← hhops, ← hrest]
        refine ⟨?_, ?_, ?_, ?_, ?_⟩
        · exact isChain_cons_cons.mpr ⟨by rw [hnext, halias], hnames⟩
        · exact forall_mem_cons.mpr ⟨by rw [halias, hfind], hentries⟩
        · rw [map_cons, nodup_cons]
          refine ⟨?_, hdistinct⟩
          intro hmem
          obtain ⟨other, hother, heq⟩ := mem_map.mp hmem
          apply hfresh other hother
          rw [heq, halias]
          exact mem_cons_self
        · exact forall_mem_cons.mpr ⟨by rwa [halias],
            fun other hold hmem => hfresh other hold (mem_cons_of_mem _ hmem)⟩
        · intro name hname
          rcases hcut name hname with hmem | hmem | hnone
          · exact .inl (mem_cons_of_mem _ hmem)
          · rcases mem_cons.mp hmem with rfl | hold
            · exact .inl (mem_cons.mpr (.inl halias.symm))
            · exact .inr (.inl hold)
          · exact .inr (.inr hnone)

/-- The walk from an entry finds the chain of its jump hosts. -/
theorem isJumpChain_jumpHops {target : Entry} (h : find entries target.hostAlias = some target) :
    IsJumpChain entries target
      (jumpHops entries (entries.length + 1) [target.hostAlias] target.proxyJump) := by
  have hknown : ∀ name ∈ [target.hostAlias], name ∈ entries.map Entry.hostAlias := by
    intro name hname
    obtain rfl := mem_singleton.mp hname
    exact mem_of_find h
  have hfuel : entries.length < [target.hostAlias].length + (entries.length + 1) := by
    omega
  obtain ⟨hnames, hentries, hdistinct, hfresh, hcut⟩ :=
    jumpHops_spec (nodup_singleton _) hknown hfuel rfl
  refine ⟨hnames, hentries, ?_, ?_⟩
  · rw [map_cons, nodup_cons]
    refine ⟨?_, hdistinct⟩
    intro hmem
    obtain ⟨entry, hentry, heq⟩ := mem_map.mp hmem
    exact hfresh entry hentry (by simp [heq])
  · intro name hname
    rcases hcut name hname with hmem | hmem | hnone
    · exact .inl (mem_cons_of_mem _ hmem)
    · obtain rfl := mem_singleton.mp hmem
      exact .inl (mem_cons_self ..)
    · exact .inr hnone

/-- The tunnels of a target are the hops of its chain of jump hosts, outermost first, followed by
the target itself. -/
def TunnelsAlongChain (entries : List Entry) (tunnels : List TunnelConfig) : Prop :=
  match find entries ssh.host with
  | none => tunnels = [applyDefaultIdentityFile files ssh]
  | some target => ∃ hops, IsJumpChain entries target hops ∧
      tunnels = (hops.reverse.map (jumpHopFromEntry files ssh) ++
        [applyHostEntry files ssh target]).map (applyDefaultIdentityFile files)

/-- **The tunnels go along the chain of jump hosts.** -/
theorem tunnelsAlongChain_resolve (entries : List Entry) :
    TunnelsAlongChain files ssh entries (resolveChainFromEntries files ssh entries) := by
  unfold TunnelsAlongChain resolveChainFromEntries
  cases hfind : find entries ssh.host with
  | none => rfl
  | some target =>
    have halias := find_alias hfind
    refine ⟨jumpHops entries (entries.length + 1) [ssh.host] target.proxyJump, ?_, ?_⟩
    · rw [← halias]
      apply isJumpChain_jumpHops
      rw [halias, hfind]
    · simp [map_reverse]

/-- **An alias resolves to the first value given, and its tunnels go along its jump hosts**, for
every alias and every target, exactly if for every alias the last line that applies gives a field
the value of the first one. -/
theorem firstValue_used_iff (content : Text) (h : HostBlocks content) :
    ((∀ hostAlias field,
        used (parse content) hostAlias field = firstValue content hostAlias field) ∧
      ∀ files ssh, TunnelsAlongChain files ssh (parse content)
        (resolveChainFromEntries files ssh (parse content))) ↔
      ∀ hostAlias field,
        lastValue content hostAlias field = firstValue content hostAlias field := by
  constructor
  · rintro ⟨hused, -⟩ hostAlias field
    rw [← used_parse h, hused]
  · intro hsame
    refine ⟨?_, fun files ssh => tunnelsAlongChain_resolve files ssh _⟩
    intro hostAlias field
    rw [used_parse h, hsame]

def agreeingBlocks : Text := "Host a b\n Port 2222\nHost a\n Port=2222\n User x".toList

theorem firstValue_used_agreeingBlocks : (parse agreeingBlocks).length = 3 ∧
      (((∀ hostAlias field, used (parse agreeingBlocks) hostAlias field =
            firstValue agreeingBlocks hostAlias field) ∧
        ∀ files ssh, TunnelsAlongChain files ssh (parse agreeingBlocks)
          (resolveChainFromEntries files ssh (parse agreeingBlocks))) ↔
        ∀ hostAlias field, lastValue agreeingBlocks hostAlias field =
            firstValue agreeingBlocks hostAlias field) := by
  refine ⟨by decide +kernel, firstValue_used_iff agreeingBlocks ?_⟩
  unfold HostBlocks
  decide +kernel

def twoUsers : Text := "Host a\n User x\nHost a\n User y".toList

/-- OpenSSH uses the first user, and the loader the last one. -/
theorem used_ne_firstValue_twoUsers :
    HostBlocks twoUsers ∧ used (parse twoUsers) ['a'] .user = some (.text ['y']) ∧
      firstValue twoUsers ['a'] .user = some (.text ['x']) := by
  unfold HostBlocks
  decide +kernel

end Dbx.Ssh
