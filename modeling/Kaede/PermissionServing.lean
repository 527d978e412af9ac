import Kaede.AccessRekey
import Kaede.PermissionReads

/-!
# What the permission cache serves

A cached mask is right for its key as long as the rows it was calculated
from were read while the key's two counters stood still: by `Revised` they
then fit together, whatever was committed in between, and so does every
state with these counters. Nothing in `get_permissions` checks that.
`undisturbed` is the condition at the one step where it matters, the store.

The invariant keeps, for every entry, a state of the history with the
entry's counters whose calculation gave the mask, and for every request what
its rows say about the state of its last read (`HeldAtLast`), provided the
counters have not moved since its first.
-/

namespace Kaede

open Permission

/-! ## The condition -/

namespace CacheSystem

/-- The counters of the member were at the last read of the request what
they were at its first. -/
def untorn (s : CacheSystem) (q : PermissionRequest) : Bool :=
  (s.history[q.last]?).map (Guild.counters · q.actor)
    = (q.first.bind fun f => s.history[f]?).map (Guild.counters · q.actor)

/-- An entry stored now for a member in timeout expires less than a second
after the timeout. -/
def prompt (s : CacheSystem) (member : GuildMember) (evaluatedAt : Nat) : Bool :=
  member.timeoutIndefinite || member.timeoutUntil.all fun deadline =>
    deadline ≤ evaluatedAt ||
      s.clock + permissionCacheTtl member evaluatedAt * second < deadline + second

/-- Every store is of rows that were read under one pair of counters, and in
time. -/
def undisturbed (s : CacheSystem) (input : CacheInput) : Bool :=
  match input with
  | .proceed r =>
      (s.requests[r]?).all fun q =>
        match q.stage with
        | .store rows evaluatedAt _ => s.untorn q && s.prompt rows.member evaluatedAt
        | _ => true
  | _ => true

end CacheSystem

/-! ## The history -/

/-- Committed states, each revised by those after it. -/
structure RevisionChain (history : List Guild) : Prop where
  schema : ∀ g ∈ history, g.ChannelSchema
  revised : ∀ (i j : Nat) (g g' : Guild), i ≤ j → history[i]? = some g → history[j]? = some g' →
    ∀ viewer, Guild.Revised g g' viewer

section

variable {history : List Guild} {g g' : Guild}

theorem getElem?_append_one_of_some {i : Nat} (h : history[i]? = some g) (x : Guild) :
    (history ++ [x])[i]? = some g := by
  obtain ⟨hi, -⟩ := List.getElem?_eq_some_iff.mp h
  rw [List.getElem?_append_left hi, h]

theorem getElem?_append_one {i : Nat} {x : Guild} (h : (history ++ [x])[i]? = some g) :
    history[i]? = some g ∨ i = history.length ∧ g = x := by
  rcases Nat.lt_or_ge i history.length with hi | hi
  · rw [List.getElem?_append_left hi] at h
    exact .inl h
  · rw [List.getElem?_append_right hi, List.getElem?_singleton] at h
    split at h
    · next hzero => exact .inr ⟨by omega, (Option.some.inj h).symm⟩
    · cases h

theorem chain_singleton (hg : g.ChannelSchema) : RevisionChain [g] := by
  refine ⟨fun g' hg' => List.mem_singleton.mp hg' ▸ hg, ?_⟩
  intro i j g₁ g₂ _ hi hj viewer
  obtain rfl := List.mem_singleton.mp (List.mem_of_getElem? hi)
  obtain rfl := List.mem_singleton.mp (List.mem_of_getElem? hj)
  exact Guild.Revised.refl _ viewer

theorem RevisionChain.append (h : RevisionChain (history ++ [g])) (hschema : g'.ChannelSchema)
    (hrevised : ∀ viewer, Guild.Revised g g' viewer) : RevisionChain (history ++ [g] ++ [g']) := by
  have hlast : (history ++ [g])[history.length]? = some g := by simp
  refine ⟨?_, ?_⟩
  · intro g₁ hg₁
    rcases List.mem_append.mp hg₁ with hg₁ | hg₁
    · exact h.schema g₁ hg₁
    · exact List.mem_singleton.mp hg₁ ▸ hschema
  · intro i j g₁ g₂ hij hi hj viewer
    rcases getElem?_append_one hi with hi' | ⟨rfl, rfl⟩
    · rcases getElem?_append_one hj with hj' | ⟨-, rfl⟩
      · exact h.revised i j g₁ g₂ hij hi' hj' viewer
      · have hbound := (List.getElem?_eq_some_iff.mp hi').1
        rw [List.length_append, List.length_singleton] at hbound
        exact (h.revised i history.length g₁ g (by omega) hi' hlast viewer).trans (hrevised viewer)
    · rcases getElem?_append_one hj with hj' | ⟨-, rfl⟩
      · have hbound := (List.getElem?_eq_some_iff.mp hj').1
        omega
      · exact Guild.Revised.refl _ viewer

/-! ## Requests -/

/-- If the counters have not moved since the first read, `P` is true of the
state of the last. -/
def HeldAtLast (history : List Guild) (q : PermissionRequest) (P : Guild → Prop) : Prop :=
  ∀ f g₀ g, q.first = some f → history[f]? = some g₀ → history[q.last]? = some g →
    g.counters q.actor = g₀.counters q.actor → P g

/-- The reads of a request are in the history, the first before the last. -/
def Window (history : List Guild) (q : PermissionRequest) : Prop :=
  ∀ f, q.first = some f → f ≤ q.last ∧ q.last < history.length

variable {q : PermissionRequest} {P Q : Guild → Prop}

theorem HeldAtLast.imp (h : HeldAtLast history q P) (himp : ∀ g, P g → Q g) :
    HeldAtLast history q Q :=
  fun f g₀ g hf hg₀ hg hkey => himp g (h f g₀ g hf hg₀ hg hkey)

theorem HeldAtLast.and (h : HeldAtLast history q P) (h' : HeldAtLast history q Q) :
    HeldAtLast history q fun g => P g ∧ Q g :=
  fun f g₀ g hf hg₀ hg hkey => ⟨h f g₀ g hf hg₀ hg hkey, h' f g₀ g hf hg₀ hg hkey⟩

/-- What is true of one state is true of the others with its counters. -/
def Movable (history : List Guild) (actor : UserRef) (P : Guild → Prop) : Prop :=
  ∀ g ∈ history, ∀ g' ∈ history, Guild.SameReads g g' actor →
    g'.permissionGeneration = g.permissionGeneration → P g → P g'

/-- One more read. What was held is held of the present state as well, and
anything new may be added about it. -/
theorem HeldAtLast.read {index : Nat} {stage : Stage} (h : HeldAtLast history q P)
    (hchain : RevisionChain history) (hwindow : Window history q)
    (hindex : history[index]? = some g) (hlatest : history.length ≤ index + 1)
    (hmove : Movable history q.actor P) (hnone : q.first = none → P g) (hnew : P g → Q g) :
    HeldAtLast history (q.read index stage) Q := by
  intro f g₀ g₁ hf hg₀ hg₁ hkey
  obtain rfl : g = g₁ := Option.some.inj (hindex.symm.trans hg₁)
  refine hnew ?_
  cases hfirst : q.first with
  | none => exact hnone hfirst
  | some f' =>
      have hff : f' = f := by simpa [PermissionRequest.read, hfirst] using hf
      subst hff
      obtain ⟨hle, hlt⟩ := hwindow f' hfirst
      obtain ⟨g₂, hg₂⟩ : ∃ g₂, history[q.last]? = some g₂ :=
        ⟨_, List.getElem?_eq_getElem hlt⟩
      have hbefore := hchain.revised f' q.last g₀ g₂ hle hg₀ hg₂ q.actor
      have hafter := hchain.revised q.last index g₂ g (by omega) hg₂ hindex q.actor
      obtain ⟨hsame, hsame'⟩ := hbefore.squeeze hafter hkey
      exact hmove g₂ (List.mem_of_getElem? hg₂) g (List.mem_of_getElem? hindex)
        (hafter.reads hsame') (congrArg Prod.fst hsame') (h f' g₀ g₂ hfirst hg₀ hg₂ hsame)

theorem Window.read {index : Nat} {stage : Stage} (h : Window history q)
    (hindex : index < history.length) (hlatest : history.length ≤ index + 1) :
    Window history (q.read index stage) := by
  intro f hf
  refine ⟨?_, hindex⟩
  cases hfirst : q.first with
  | none =>
      have hff : index = f := by simpa [PermissionRequest.read, hfirst] using hf
      exact hff.ge
  | some f' =>
      have hff : f' = f := by simpa [PermissionRequest.read, hfirst] using hf
      obtain ⟨hle, hlt⟩ := h f' hfirst
      show f ≤ index
      omega

/-- A commit after the last read changes nothing. -/
theorem HeldAtLast.append (h : HeldAtLast history q P) (hwindow : Window history q) (x : Guild) :
    HeldAtLast (history ++ [x]) q P := by
  intro f g₀ g hf hg₀ hg hkey
  obtain ⟨hle, hlt⟩ := hwindow f hf
  rw [List.getElem?_append_left (by omega)] at hg₀
  rw [List.getElem?_append_left hlt] at hg
  exact h f g₀ g hf hg₀ hg hkey

theorem Window.append (h : Window history q) (x : Guild) : Window (history ++ [x]) q := by
  intro f hf
  obtain ⟨hle, hlt⟩ := h f hf
  rw [List.length_append]
  exact ⟨hle, by omega⟩

/-- What the rows loaded so far say about a state. -/
def LoadingHeld (channel : Option Channel) (guild : Option GuildRow) (g : Guild) : Prop :=
  (∀ c, channel = some c → g.seats c.id = some c.seat) ∧
    ∀ row, guild = some row → row = g.toGuildRow

/-- The guild row was read at `since`. -/
def GuildRead (history : List Guild) (q : PermissionRequest) (row : GuildRow) : Prop :=
  ∃ g, history[q.since]? = some g ∧ g.toGuildRow = row

structure LoadingOk (history : List Guild) (q : PermissionRequest) (channel : Option Channel)
    (guild : Option GuildRow) : Prop where
  started : q.first = none → channel = none ∧ guild = none
  held : HeldAtLast history q (LoadingHeld channel guild)
  scope : ∀ c, channel = some c → q.scope = some c.id ∧ c.SyncOk
  read : ∀ row, guild = some row → GuildRead history q row

structure RowsOk (history : List Guild) (q : PermissionRequest) (rows : Loaded) : Prop where
  started : q.first ≠ none
  scope : rows.channel.map Channel.id = q.scope
  guild : GuildRead history q rows.guild
  member : ∃ i g, q.since ≤ i ∧ history[i]? = some g ∧ g.member? q.actor = some rows.member
  held : HeldAtLast history q fun g => RowsHeld g q.actor q.scope rows

/-- A mask that was served is the one of a state that is not older than the
guild row, with the counters that were loaded, now or less than a second
before the member's timeout ended. -/
def Current (history : List Guild) (q : PermissionRequest) (rows : Loaded)
    (permissions servedAt : Nat) : Prop :=
  GuildRead history q rows.guild ∧ ∃ k g member t, q.since ≤ k ∧ history[k]? = some g ∧
    g.permissionGeneration = rows.guild.permissionGeneration ∧
    g.member? q.actor = some member ∧ member.memberVersion = rows.member.memberVersion ∧
    g.permissionsAt q.actor q.scope t = .ok permissions ∧ t ≤ servedAt ∧
    (t = servedAt ∨ member.timeoutIndefinite = false ∧ ∃ deadline,
      member.timeoutUntil = some deadline ∧ t < deadline ∧ servedAt < deadline + second)

def StageOk (history : List Guild) (clock : Nat) (q : PermissionRequest) : Stage → Prop
  | .loading channel guild => LoadingOk history q channel guild
  | .consult rows => RowsOk history q rows
  | .lock rows => RowsOk history q rows
  | .stale rows => RowsOk history q rows
  | .poll rows _ => RowsOk history q rows
  | .evaluate rows => RowsOk history q rows
  | .calculate rows evaluatedAt reading =>
      RowsOk history q rows ∧ (∀ t ∈ evaluatedAt, t ≤ clock) ∧
        HeldAtLast history q fun g => ReadingHeld g q.actor rows evaluatedAt reading
  | .store rows evaluatedAt permissions =>
      RowsOk history q rows ∧ evaluatedAt ≤ clock ∧
        HeldAtLast history q fun g => g.permissionsAt q.actor q.scope evaluatedAt = .ok permissions
  | .release _ _ => True
  | .served rows permissions servedAt => Current history q rows permissions servedAt
  | .staleZero _ => True
  | .finished _ => True

structure RequestOk (history : List Guild) (clock : Nat) (q : PermissionRequest) : Prop where
  window : Window history q
  stage : StageOk history clock q q.stage

/-- An entry is the mask of a state with the counters of its key. -/
def EntryOk (history : List Guild) (clock : Nat) (e : Expiring PermissionKey Nat) : Prop :=
  ∃ (k : Nat) (g : Guild) (member : GuildMember) (t : Nat), history[k]? = some g ∧
    g.permissionGeneration = e.key.generation ∧
    g.member? e.key.actor = some member ∧ member.memberVersion = e.key.version ∧
    g.permissionsAt e.key.actor e.key.scope t = .ok e.value ∧ t ≤ clock ∧
    (member.timeoutIndefinite = false → ∀ deadline, member.timeoutUntil = some deadline →
      t < deadline → e.expiresAt < deadline + second)

/-! ### Commits and time -/

variable {rows : Loaded} {clock clock' : Nat}

theorem GuildRead.append {row : GuildRow} (h : GuildRead history q row) (x : Guild) :
    GuildRead (history ++ [x]) q row := by
  obtain ⟨g, hg, hrow⟩ := h
  exact ⟨g, getElem?_append_one_of_some hg x, hrow⟩

theorem LoadingOk.append {channel : Option Channel} {guild : Option GuildRow}
    (h : LoadingOk history q channel guild) (hwindow : Window history q) (x : Guild) :
    LoadingOk (history ++ [x]) q channel guild :=
  ⟨h.started, h.held.append hwindow x, h.scope, fun row hrow => (h.read row hrow).append x⟩

theorem RowsOk.append (h : RowsOk history q rows) (hwindow : Window history q) (x : Guild) :
    RowsOk (history ++ [x]) q rows := by
  obtain ⟨i, g, hi, hg, hmember⟩ := h.member
  exact ⟨h.started, h.scope, h.guild.append x,
    ⟨i, g, hi, getElem?_append_one_of_some hg x, hmember⟩, h.held.append hwindow x⟩

theorem Current.append {permissions servedAt : Nat}
    (h : Current history q rows permissions servedAt) (x : Guild) :
    Current (history ++ [x]) q rows permissions servedAt := by
  obtain ⟨hguild, k, g, member, t, hk, hg, hrest⟩ := h
  exact ⟨hguild.append x, k, g, member, t, hk, getElem?_append_one_of_some hg x, hrest⟩

theorem EntryOk.append {e : Expiring PermissionKey Nat} (h : EntryOk history clock e) (x : Guild) :
    EntryOk (history ++ [x]) clock e := by
  obtain ⟨k, g, member, t, hg, hrest⟩ := h
  exact ⟨k, g, member, t, getElem?_append_one_of_some hg x, hrest⟩

theorem RequestOk.append (h : RequestOk history clock q) (x : Guild) :
    RequestOk (history ++ [x]) clock q := by
  obtain ⟨hwindow, hstage⟩ := h
  refine ⟨hwindow.append x, ?_⟩
  cases hcase : q.stage with
  | loading channel guild =>
      rw [hcase] at hstage
      exact LoadingOk.append hstage hwindow x
  | calculate rows evaluatedAt reading =>
      rw [hcase] at hstage
      obtain ⟨hrows, htime, hheld⟩ := hstage
      exact ⟨hrows.append hwindow x, htime, hheld.append hwindow x⟩
  | store rows evaluatedAt permissions =>
      rw [hcase] at hstage
      obtain ⟨hrows, htime, hheld⟩ := hstage
      exact ⟨hrows.append hwindow x, htime, hheld.append hwindow x⟩
  | served rows permissions servedAt =>
      rw [hcase] at hstage
      exact Current.append hstage x
  | release rows result => trivial
  | staleZero rows => trivial
  | finished result => trivial
  | consult rows | lock rows | stale rows | poll rows left | evaluate rows =>
      rw [hcase] at hstage
      exact RowsOk.append hstage hwindow x

theorem RequestOk.later (h : RequestOk history clock q) (hle : clock ≤ clock') :
    RequestOk history clock' q := by
  obtain ⟨hwindow, hstage⟩ := h
  refine ⟨hwindow, ?_⟩
  cases hcase : q.stage with
  | calculate rows evaluatedAt reading =>
      rw [hcase] at hstage
      obtain ⟨hrows, htime, hheld⟩ := hstage
      exact ⟨hrows, fun t ht => (htime t ht).trans hle, hheld⟩
  | store rows evaluatedAt permissions =>
      rw [hcase] at hstage
      obtain ⟨hrows, htime, hheld⟩ := hstage
      exact ⟨hrows, htime.trans hle, hheld⟩
  | loading | consult | lock | stale | poll | evaluate | release | served | staleZero | finished =>
      rw [hcase] at hstage
      exact hstage

theorem EntryOk.later {e : Expiring PermissionKey Nat} (h : EntryOk history clock e)
    (hle : clock ≤ clock') : EntryOk history clock' e := by
  obtain ⟨k, g, member, t, hg, hgeneration, hmember, hversion, hmask, htime, hrest⟩ := h
  exact ⟨k, g, member, t, hg, hgeneration, hmember, hversion, hmask, htime.trans hle, hrest⟩

/-! ### Loads -/

theorem RowsOk.withStage (h : RowsOk history q rows) (stage : Stage) :
    RowsOk history (q.withStage stage) rows :=
  ⟨h.started, h.scope, h.guild, h.member, h.held⟩

theorem loadingHeld_none (g : Guild) : LoadingHeld none none g := by
  refine ⟨?_, ?_⟩
  · intro c hc
    cases hc
  · intro row hrow
    cases hrow

theorem loadingHeld_movable (channel : Option Channel) (guild : Option GuildRow) :
    Movable history q.actor (LoadingHeld channel guild) := by
  intro g _ g' _ hsame hgeneration h
  refine ⟨?_, ?_⟩
  · rw [hsame.seats_eq]
    exact h.1
  · intro row hrow
    rw [hsame.toGuildRow_eq hgeneration]
    exact h.2 row hrow

variable {s : CacheSystem} {q' : PermissionRequest}

theorem history_present (s : CacheSystem) : s.history[s.present]? = some s.guild := by
  simp [CacheSystem.history, CacheSystem.present]

theorem history_length (s : CacheSystem) : s.history.length = s.present + 1 := by
  simp [CacheSystem.history, CacheSystem.present]

theorem history_guild (s : CacheSystem) : s.guild ∈ s.history :=
  List.mem_of_getElem? (history_present s)

theorem GuildRead.since_le {row : GuildRow} (h : GuildRead s.history q row) :
    q.since ≤ s.present := by
  obtain ⟨g, hg, -⟩ := h
  have hlt := (List.getElem?_eq_some_iff.mp hg).1
  rw [history_length] at hlt
  omega

theorem RequestOk.held_read {stage : Stage} (hq : RequestOk s.history s.clock q)
    (hchain : RevisionChain s.history) (h : HeldAtLast s.history q P)
    (hmove : Movable s.history q.actor P) (hnone : q.first = none → P s.guild)
    (hnew : P s.guild → Q s.guild) : HeldAtLast s.history (q.read s.present stage) Q :=
  h.read hchain hq.window (history_present s) (history_length s).le hmove hnone hnew

theorem RequestOk.window_read (hq : RequestOk s.history s.clock q) (stage : Stage) :
    Window s.history (q.read s.present stage) :=
  hq.window.read (by rw [history_length]; omega) (history_length s).le

theorem loadChannel_ok (hchain : RevisionChain s.history) (hq : RequestOk s.history s.clock q)
    (h : s.loadChannel q = some q') : RequestOk s.history s.clock q' := by
  unfold CacheSystem.loadChannel at h
  split at h
  · next guild id hstage hscope =>
      have hloading := hq.stage
      rw [hstage] at hloading
      obtain ⟨hstarted, hheld, -, hread⟩ := hloading
      split at h
      · obtain rfl := Option.some.inj h
        exact ⟨hq.window, trivial⟩
      · next c hc =>
          obtain rfl := Option.some.inj h
          rw [Option.filter_eq_some_iff] at hc
          have hid : c.id = id := key_of_lookupBy hc.1
          have hseat : s.guild.seats c.id = some c.seat := by
            rw [Guild.seats, hid, hc.1]
            rfl
          have hok : c.SyncOk := (hchain.schema _ (history_guild s)).syncOk hc.1
          refine ⟨hq.window_read _, ⟨?_, ?_, ?_, hread⟩⟩
          · rintro ⟨⟩
          · refine hq.held_read hchain hheld (loadingHeld_movable none guild) ?_ ?_
            · intro hnone
              obtain ⟨-, rfl⟩ := hstarted hnone
              exact loadingHeld_none s.guild
            · rintro ⟨-, hguild⟩
              refine ⟨?_, hguild⟩
              rintro c' ⟨⟩
              exact hseat
          · rintro c' ⟨⟩
            exact ⟨hscope.trans (congrArg some hid.symm), hok⟩
  · cases h

theorem loadGuild_ok (hchain : RevisionChain s.history) (hq : RequestOk s.history s.clock q)
    (h : s.loadGuild q = some q') : RequestOk s.history s.clock q' := by
  unfold CacheSystem.loadGuild at h
  split at h
  · next channel hstage =>
      have hloading := hq.stage
      rw [hstage] at hloading
      obtain ⟨hstarted, hheld, hscope, -⟩ := hloading
      obtain rfl := Option.some.inj h
      refine ⟨hq.window_read (.loading channel (some s.guild.toGuildRow)), ⟨?_, ?_, hscope, ?_⟩⟩
      · rintro ⟨⟩
      · show HeldAtLast s.history (q.read s.present (.loading channel (some s.guild.toGuildRow))) _
        refine hq.held_read hchain hheld (loadingHeld_movable channel none) ?_ ?_
        · intro hnone
          obtain ⟨rfl, -⟩ := hstarted hnone
          exact loadingHeld_none s.guild
        · rintro ⟨hchannel, -⟩
          refine ⟨hchannel, ?_⟩
          rintro row ⟨⟩
          rfl
      · rintro row ⟨⟩
        exact ⟨s.guild, history_present s, rfl⟩
  · cases h

theorem loadMember_ok (hchain : RevisionChain s.history) (hq : RequestOk s.history s.clock q)
    (h : s.loadMember q = some q') : RequestOk s.history s.clock q' := by
  unfold CacheSystem.loadMember at h
  split at h
  · next channel guild hstage =>
      have hloading := hq.stage
      rw [hstage] at hloading
      obtain ⟨hstarted, hheld, hscope, hread⟩ := hloading
      split at h
      · next hsome =>
          have hscope' : channel.map Channel.id = q.scope := by
            cases channel with
            | none =>
                rw [Option.isSome_none, eq_comm, Option.isSome_eq_false_iff,
                  Option.isNone_iff_eq_none] at hsome
                exact hsome.symm
            | some c => exact (hscope c rfl).1.symm
          split at h
          · obtain rfl := Option.some.inj h
            exact ⟨hq.window, trivial⟩
          · next member hmember =>
              obtain rfl := Option.some.inj h
              have hguild := hread guild rfl
              refine ⟨hq.window_read _, ⟨by rintro ⟨⟩, hscope', hguild,
                ⟨s.present, s.guild, hguild.since_le, history_present s, hmember⟩, ?_⟩⟩
              refine hq.held_read hchain hheld (loadingHeld_movable channel (some guild)) ?_ ?_
              · intro hnone
                obtain ⟨-, hno⟩ := hstarted hnone
                cases hno
              · rintro ⟨hchannel, hrow⟩
                exact ⟨hrow guild rfl, hmember, hscope',
                  fun c hc => ⟨hchannel c hc, (hscope c hc).2⟩⟩
      · cases h
  · cases h

/-! ### The cache -/

/-- A timeout that an entry still counts has not been over for a second. -/
theorem timedOut_or_late {member : GuildMember} {t now expiresAt : Nat} (ht : t ≤ now)
    (hlive : now ≤ expiresAt) (hexpires : member.timeoutIndefinite = false →
      ∀ deadline, member.timeoutUntil = some deadline → t < deadline →
        expiresAt < deadline + second) :
    member.timedOut t = member.timedOut now ∨ member.timeoutIndefinite = false ∧ ∃ deadline,
      member.timeoutUntil = some deadline ∧ t < deadline ∧ now < deadline + second := by
  unfold GuildMember.timedOut
  cases hindefinite : member.timeoutIndefinite with
  | true => exact .inl rfl
  | false =>
      cases hdeadline : member.timeoutUntil with
      | none => exact .inl rfl
      | some deadline =>
          by_cases hpending : t < deadline
          · exact .inr ⟨rfl, deadline, rfl, hpending,
              hlive.trans_lt (hexpires hindefinite deadline hdeadline hpending)⟩
          · have hover : ¬ now < deadline := by omega
            simp [hpending, hover]

/-- A state with the loaded counters that is older than the guild row can
be exchanged for the one the row was read from: the counters have not moved
in between. -/
theorem RowsOk.moved {k : Nat} {member : GuildMember} (h : RowsOk history q rows)
    (hchain : RevisionChain history) (hg : history[k]? = some g)
    (hgeneration : g.permissionGeneration = rows.guild.permissionGeneration)
    (hmember : g.member? q.actor = some member)
    (hversion : member.memberVersion = rows.member.memberVersion) :
    ∃ k' g', q.since ≤ k' ∧ history[k']? = some g' ∧
      g'.permissionGeneration = rows.guild.permissionGeneration ∧
      g'.member? q.actor = some member ∧
      g'.permissionsAt q.actor q.scope = g.permissionsAt q.actor q.scope := by
  rcases Nat.lt_or_ge k q.since with hbefore | hafter
  · obtain ⟨g₀, hg₀, hrow⟩ := h.guild
    obtain ⟨i, g₁, hi, hg₁, hmember₁⟩ := h.member
    have hrevised := hchain.revised k q.since g g₀ hbefore.le hg hg₀ q.actor
    have hrevised₁ := hchain.revised q.since i g₀ g₁ hi hg₀ hg₁ q.actor
    have hgeneration₀ : g₀.permissionGeneration = rows.guild.permissionGeneration :=
      congrArg GuildRow.permissionGeneration hrow
    have hcounters : g₀.counters q.actor = g.counters q.actor := by
      have hle := hrevised.version
      have hle₁ := hrevised₁.version
      simp only [Guild.memberVersion, hmember, hmember₁, Option.map_some, Option.getD_some]
        at hle hle₁
      simp only [Guild.counters, Guild.memberVersion, hmember, hgeneration₀, hgeneration,
        Option.map_some, Option.getD_some, Prod.mk.injEq, true_and]
      omega
    have hsame := hrevised.reads hcounters
    refine ⟨q.since, g₀, le_rfl, hg₀, hgeneration₀, hsame.member.trans hmember, ?_⟩
    funext now
    exact permissionsAt_moved (hchain.schema g (List.mem_of_getElem? hg))
      (hchain.schema g₀ (List.mem_of_getElem? hg₀)) hsame
  · exact ⟨k, g, hafter, hg, hgeneration, hmember, rfl⟩

/-- An entry found under the key of a request. -/
theorem RowsOk.current {e : Expiring PermissionKey Nat} (h : RowsOk history q rows)
    (hchain : RevisionChain history) (he : EntryOk history clock e)
    (hkey : e.key = rows.key q.actor) (hlive : clock ≤ e.expiresAt) :
    Current history q rows e.value clock := by
  obtain ⟨k, g, member, t, hg, hgeneration, hmember, hversion, hmask, htime, hexpires⟩ := he
  rw [hkey] at hgeneration hmember hversion hmask
  simp only [Loaded.key, h.scope] at hgeneration hmember hversion hmask
  obtain ⟨k', g', hk', hg', hgeneration', hmember', hmasks⟩ :=
    h.moved hchain hg hgeneration hmember hversion
  rw [← hmasks] at hmask
  refine ⟨h.guild, k', g', member, ?_⟩
  rcases timedOut_or_late htime hlive hexpires with hsame | hlate
  · refine ⟨clock, hk', hg', hgeneration', hmember', hversion, ?_, le_rfl, .inl rfl⟩
    rw [← hmask]
    refine permissionsAt_time ?_
    intro m hm
    rw [hmember'] at hm
    rw [← Option.some.inj hm, hsame]
  · exact ⟨t, hk', hg', hgeneration', hmember', hversion, hmask, htime, .inr hlate⟩

theorem lookup_ok {otherwise : Stage} (hchain : RevisionChain s.history)
    (hentries : ∀ e ∈ s.entries, EntryOk s.history s.clock e) (hrows : RowsOk s.history q rows)
    (hotherwise : StageOk s.history s.clock q otherwise) :
    StageOk s.history s.clock q (s.lookup q rows otherwise) := by
  unfold CacheSystem.lookup
  split
  · next permissions hget =>
      obtain ⟨e, he, hkey, rfl, hlive⟩ := Expiring.mem_of_get hget
      exact hrows.current hchain (hentries e he) hkey hlive
  · exact hotherwise

theorem readingHeld_movable {evaluatedAt : Option Nat} {reading : PermissionReading}
    (hchain : RevisionChain history) : Movable history q.actor fun g =>
      RowsHeld g q.actor q.scope rows ∧ ReadingHeld g q.actor rows evaluatedAt reading := by
  intro g hg g' _ hsame hgeneration h
  exact ⟨h.1.moved hsame hgeneration, h.2.moved (hchain.schema g hg) h.1 hsame⟩

theorem RowsOk.read {stage : Stage} (h : RowsOk s.history q rows)
    (hq : RequestOk s.history s.clock q) (hchain : RevisionChain s.history) :
    RowsOk s.history (q.read s.present stage) rows := by
  refine ⟨by rintro ⟨⟩, h.scope, h.guild, h.member, ?_⟩
  refine hq.held_read hchain h.held ?_ (fun hnone => absurd hnone h.started) id
  intro g _ g' _ hsame hgeneration hrows
  exact hrows.moved hsame hgeneration

theorem calculate_ok {evaluatedAt : Option Nat} {reading : PermissionReading}
    (hchain : RevisionChain s.history) (hq : RequestOk s.history s.clock q)
    (hstage : q.stage = .calculate rows evaluatedAt reading) :
    RequestOk s.history s.clock (s.calculate q rows evaluatedAt reading) := by
  have hcalculate := hq.stage
  rw [hstage] at hcalculate
  obtain ⟨hrows, htime, hheld⟩ := hcalculate
  have hresult : ∀ result stage,
      reading.step s.guild (human q.actor) rows evaluatedAt s.clock = .ok result →
      HeldAtLast s.history (q.read s.present stage) fun g =>
        ResultHeld g q.actor q.scope rows evaluatedAt result := by
    intro result stage hstep
    refine hq.held_read hchain (hrows.held.and hheld) (readingHeld_movable hchain)
      (fun hnone => absurd hnone hrows.started) ?_
    rintro ⟨hrows', hread⟩
    exact step_held (hchain.schema _ (history_guild s)) hrows' hread hstep
  unfold CacheSystem.calculate
  split
  · exact ⟨hq.window, trivial⟩
  · exact ⟨hq.window, trivial⟩
  · next next hstep =>
      exact ⟨hq.window_read _, hrows.read hq hchain, htime, hresult _ _ hstep⟩
  · exact ⟨hq.window_read _, trivial⟩
  · next permissions t hstep =>
      refine ⟨hq.window_read _, hrows.read hq hchain, htime t rfl, ?_⟩
      refine (hresult _ _ hstep).imp ?_
      intro g hmask
      exact hmask t rfl

/-- The entry of an undisturbed store. -/
theorem store_ok {evaluatedAt permissions : Nat} (hq : RequestOk s.history s.clock q)
    (hstage : q.stage = .store rows evaluatedAt permissions) (huntorn : s.untorn q = true)
    (hprompt : s.prompt rows.member evaluatedAt = true) :
    EntryOk s.history s.clock { key := rows.key q.actor, value := permissions, expiresAt :=
      s.clock + permissionCacheTtl rows.member evaluatedAt * second } := by
  have hstore := hq.stage
  rw [hstage] at hstore
  obtain ⟨hrows, htime, hmask⟩ := hstore
  obtain ⟨f, hfirst⟩ := Option.ne_none_iff_exists'.mp hrows.started
  obtain ⟨hle, hlt⟩ := hq.window f hfirst
  obtain ⟨g₀, hg₀⟩ : ∃ g₀, s.history[f]? = some g₀ :=
    ⟨_, List.getElem?_eq_getElem (hle.trans_lt hlt)⟩
  obtain ⟨g, hg⟩ : ∃ g, s.history[q.last]? = some g := ⟨_, List.getElem?_eq_getElem hlt⟩
  have hcounters : g.counters q.actor = g₀.counters q.actor := by
    simpa [CacheSystem.untorn, hfirst, hg, hg₀] using huntorn
  have hheld := hrows.held f g₀ g hfirst hg₀ hg hcounters
  refine ⟨q.last, g, rows.member, evaluatedAt, hg, ?_, hheld.member, rfl, ?_, htime, ?_⟩
  · exact (congrArg GuildRow.permissionGeneration hheld.guild).symm
  · show g.permissionsAt q.actor (rows.channel.map Channel.id) evaluatedAt = _
    rw [hrows.scope]
    exact hmask f g₀ g hfirst hg₀ hg hcounters
  · intro hindefinite deadline hdeadline hpending
    simpa [CacheSystem.prompt, hindefinite, hdeadline, Nat.not_le.mpr hpending] using hprompt

/-! ## Runs -/

structure CacheInv (s : CacheSystem) : Prop where
  chain : RevisionChain s.history
  entries : ∀ e ∈ s.entries, EntryOk s.history s.clock e
  requests : ∀ q ∈ s.requests, RequestOk s.history s.clock q

theorem cacheInv_init {now : Nat} (hg : g.ChannelSchema) : CacheInv (CacheSystem.init g now) := by
  refine ⟨chain_singleton hg, ?_, ?_⟩
  · intro e he
    exact absurd he List.not_mem_nil
  · intro q hq
    exact absurd hq List.not_mem_nil

theorem CacheInv.setRequest {s' : CacheSystem} {r : Nat} (hs : CacheInv s)
    (hpast : s'.past = s.past) (hguild : s'.guild = s.guild) (hclock : s'.clock = s.clock)
    (hrequests : s'.requests = s.requests)
    (hentries : ∀ e ∈ s'.entries, EntryOk s.history s.clock e)
    (hq : RequestOk s.history s.clock q) : CacheInv (s'.setRequest r q) := by
  have hhistory : (s'.setRequest r q).history = s.history := by
    show s'.past ++ [s'.guild] = s.past ++ [s.guild]
    rw [hpast, hguild]
  have hclock' : (s'.setRequest r q).clock = s.clock := hclock
  refine ⟨?_, ?_, ?_⟩
  · rw [hhistory]
    exact hs.chain
  · rw [hhistory, hclock']
    exact hentries
  · rw [hhistory, hclock']
    intro q₁ hq₁
    rcases List.mem_or_eq_of_mem_set hq₁ with hmem | rfl
    · exact hs.requests q₁ (hrequests ▸ hmem)
    · exact hq

theorem requestOk_call (actor : UserRef) (scope : Option Nat) :
    RequestOk history clock { actor := actor, scope := scope, stage := .loading none none
                              first := none, since := 0, last := 0 } := by
  refine ⟨?_, ⟨fun _ => ⟨rfl, rfl⟩, ?_, ?_, ?_⟩⟩
  · intro f hf
    cases hf
  · intro f g₀ g hf
    cases hf
  · intro c hc
    cases hc
  · intro row hrow
    cases hrow

theorem RequestOk.withStage {stage : Stage} (hq : RequestOk s.history s.clock q)
    (h : StageOk s.history s.clock (q.withStage stage) stage) :
    RequestOk s.history s.clock (q.withStage stage) :=
  ⟨hq.window, h⟩

theorem proceed_inv {s' : CacheSystem} {r : Nat} (hs : CacheInv s)
    (hq : RequestOk s.history s.clock q)
    (hstore : ∀ rows evaluatedAt permissions, q.stage = .store rows evaluatedAt permissions →
      s.untorn q = true ∧ s.prompt rows.member evaluatedAt = true)
    (h : s.proceed r q = some s') : CacheInv s' := by
  have hstage := hq.stage
  unfold CacheSystem.proceed at h
  split at h
  · next rows heq =>
      rw [heq] at hstage
      have hrows : RowsOk s.history q rows := hstage
      obtain rfl := Option.some.inj h
      refine hs.setRequest rfl rfl rfl rfl hs.entries (hq.withStage ?_)
      exact lookup_ok (q := q.withStage _) hs.chain hs.entries (hrows.withStage _)
        (hrows.withStage _)
  · next rows heq =>
      rw [heq] at hstage
      have hrows : RowsOk s.history q rows := hstage
      obtain rfl := Option.some.inj h
      unfold CacheSystem.acquire
      split
      · exact hs.setRequest rfl rfl rfl rfl hs.entries (hq.withStage (hrows.withStage _))
      · exact hs.setRequest rfl rfl rfl rfl hs.entries (hq.withStage (hrows.withStage _))
  · next rows heq =>
      rw [heq] at hstage
      have hrows : RowsOk s.history q rows := hstage
      obtain rfl := Option.some.inj h
      refine hs.setRequest rfl rfl rfl rfl hs.entries (hq.withStage ?_)
      unfold CacheSystem.checkStale
      split
      · trivial
      · exact hrows.withStage _
  · next rows heq =>
      rw [heq] at hstage
      have hrows : RowsOk s.history q rows := hstage
      obtain rfl := Option.some.inj h
      exact hs.setRequest rfl rfl rfl rfl hs.entries
        (hq.withStage ⟨hrows.withStage _, fun t ht => (Option.not_mem_none t ht).elim,
          fun _ _ _ _ _ _ _ => trivial⟩)
  · next rows left heq =>
      rw [heq] at hstage
      have hrows : RowsOk s.history q rows := hstage
      obtain rfl := Option.some.inj h
      refine hs.setRequest rfl rfl rfl rfl hs.entries (hq.withStage ?_)
      exact lookup_ok (q := q.withStage _) hs.chain hs.entries (hrows.withStage _)
        (hrows.withStage _)
  · next rows heq =>
      rw [heq] at hstage
      have hrows : RowsOk s.history q rows := hstage
      obtain rfl := Option.some.inj h
      refine hs.setRequest rfl rfl rfl rfl hs.entries
        (hq.withStage ⟨hrows.withStage _, ?_, fun _ _ _ _ _ _ _ => trivial⟩)
      rintro t ⟨⟩
      exact le_rfl
  · next rows evaluatedAt reading heq =>
      obtain rfl := Option.some.inj h
      exact hs.setRequest rfl rfl rfl rfl hs.entries (calculate_ok hs.chain hq heq)
  · next rows evaluatedAt permissions heq =>
      obtain rfl := Option.some.inj h
      obtain ⟨huntorn, hprompt⟩ := hstore rows evaluatedAt permissions heq
      refine hs.setRequest rfl rfl rfl rfl ?_ (hq.withStage trivial)
      exact Expiring.forall_mem_set hs.entries (store_ok hq heq huntorn hprompt)
  · obtain rfl := Option.some.inj h
    unfold CacheSystem.unlock
    split
    · exact hs.setRequest rfl rfl rfl rfl hs.entries (hq.withStage trivial)
    · exact hs.setRequest rfl rfl rfl rfl hs.entries (hq.withStage trivial)
  · cases h

theorem cacheStep_inv {s' : CacheSystem} {input : CacheInput} (hs : CacheInv s)
    (hcondition : s.undisturbed input = true) (h : s.step input = some s') : CacheInv s' := by
  cases input with
  | mutate mutation =>
      obtain ⟨g', hcommit, rfl⟩ := Option.map_eq_some_iff.mp h
      rw [toOption_eq_some] at hcommit
      obtain ⟨hschema, hrevised⟩ := PermissionMutation.commit_revised
        (hs.chain.schema _ (history_guild s)) hcommit
      exact ⟨hs.chain.append hschema hrevised, fun e he => (hs.entries e he).append g',
        fun q hq => (hs.requests q hq).append g'⟩
  | tick elapsed =>
      obtain rfl := Option.some.inj h
      have hle : s.clock ≤ s.clock + elapsed := Nat.le_add_right _ _
      exact ⟨hs.chain, fun e he => (hs.entries e he).later hle,
        fun q hq => (hs.requests q hq).later hle⟩
  | call actor scope =>
      obtain rfl := Option.some.inj h
      refine ⟨hs.chain, hs.entries, ?_⟩
      intro q hq
      rcases List.mem_append.mp hq with hq | hq
      · exact hs.requests q hq
      · obtain rfl := List.mem_singleton.mp hq
        exact requestOk_call actor scope
  | loadChannel r =>
      obtain ⟨q, hq, h⟩ := Option.bind_eq_some_iff.mp h
      obtain ⟨q', hload, rfl⟩ := Option.map_eq_some_iff.mp h
      exact hs.setRequest rfl rfl rfl rfl hs.entries
        (loadChannel_ok hs.chain (hs.requests q (List.mem_of_getElem? hq)) hload)
  | loadGuild r =>
      obtain ⟨q, hq, h⟩ := Option.bind_eq_some_iff.mp h
      obtain ⟨q', hload, rfl⟩ := Option.map_eq_some_iff.mp h
      exact hs.setRequest rfl rfl rfl rfl hs.entries
        (loadGuild_ok hs.chain (hs.requests q (List.mem_of_getElem? hq)) hload)
  | loadMember r =>
      obtain ⟨q, hq, h⟩ := Option.bind_eq_some_iff.mp h
      obtain ⟨q', hload, rfl⟩ := Option.map_eq_some_iff.mp h
      exact hs.setRequest rfl rfl rfl rfl hs.entries
        (loadMember_ok hs.chain (hs.requests q (List.mem_of_getElem? hq)) hload)
  | proceed r =>
      obtain ⟨q, hq, h⟩ := Option.bind_eq_some_iff.mp h
      refine proceed_inv hs (hs.requests q (List.mem_of_getElem? hq)) ?_ h
      intro rows evaluatedAt permissions hstage
      simpa [CacheSystem.undisturbed, hq, hstage] using hcondition

/-- In a run whose stores are undisturbed, whatever the cache has served is
current. -/
theorem served_masks_current {s₁ : CacheSystem} {inputs : List CacheInput} {now r : Nat}
    {permissions servedAt : Nat} (hg : g.ChannelSchema)
    (hrun : Exec CacheSystem.step (fun s input => s.undisturbed input = true)
      (CacheSystem.init g now) inputs s₁)
    (hq : s₁.requests[r]? = some q) (hserved : q.stage = .served rows permissions servedAt) :
    Current s₁.history q rows permissions servedAt := by
  have hinv : CacheInv s₁ := Exec.invariant
    (fun _ _ _ hs hcondition hstep => cacheStep_inv hs hcondition hstep) hrun (cacheInv_init hg)
  have hstage := (hinv.requests q (List.mem_of_getElem? hq)).stage
  rw [hserved] at hstage
  exact hstage

end

/-- Channel 11 follows category 8, where everyone sees it; category 9 hides
its channels. -/
def sampleMoves : Guild :=
  { id := 5, domain := "home", owner := sampleOwner, permissionGeneration := 1
    onboarding := noOnboarding
    roles := [sampleRole 5 0 viewChannel]
    members := [sampleMember sampleOwner, sampleMember sampleModerator]
    memberRoles := []
    channels :=
      [{ id := 8, type := .category }, { id := 9, type := .category },
        { id := 11, type := .text, parentId := some 8, permissionsSynced := true }]
    overwrites :=
      [{ channelId := 9
         overwrite :=
          { targetId := 5, targetDomain := "home", targetType := .role, allow := 0
            deny := viewChannel } }]
    threadMembers := []
    installations := [] }

/-- The owner moves channel 11 to category 9. -/
def sampleMove : PermissionMutation :=
  .updateChannel (human sampleOwner) 11 { parentId := some (some 9), syncPermissions := true }
    (some 0)
    { channelMask := allPermissions, parentMask := allPermissions, syncMask := allPermissions
      e2eeActivationEnabled := true, valuesAccepted := true }

/-- From the member row to the release of the lock, when nothing is
cached. -/
def sampleCalculation (r : Nat) : List CacheInput :=
  .loadMember r :: List.replicate 8 (.proceed r)

/-- A request whose mask is served. -/
def sampleHit (r : Nat) : List CacheInput :=
  [.call sampleModerator (some 11), .loadChannel r, .loadGuild r, .loadMember r, .proceed r]

def servedMask (s : CacheSystem) (r : Nat) : Option Nat :=
  (s.requests[r]?).bind fun q =>
    match q.stage with
    | .served _ permissions _ => some permissions
    | _ => none

theorem exists_of_servedMask {s : CacheSystem} {r permissions : Nat}
    (h : servedMask s r = some permissions) :
    ∃ q rows servedAt, s.requests[r]? = some q ∧ q.stage = .served rows permissions servedAt := by
  obtain ⟨q, hq, h⟩ := Option.bind_eq_some_iff.mp h
  split at h
  · next rows _ servedAt hstage =>
      obtain rfl := Option.some.inj h
      exact ⟨q, rows, servedAt, hq, hstage⟩
  · cases h

/-- The channel is moved, a first request fills the cache, and a second one
is served that it sees nothing. -/
theorem served_masks_current_sample : ∃ s₁ q rows servedAt,
    Exec CacheSystem.step (fun s input => s.undisturbed input = true)
      (CacheSystem.init sampleMoves 0)
      ([.mutate sampleMove, .call sampleModerator (some 11), .loadChannel 0, .loadGuild 0]
        ++ sampleCalculation 0 ++ sampleHit 1) s₁ ∧
    s₁.requests[1]? = some q ∧ q.stage = .served rows 0 servedAt ∧
    Current s₁.history q rows 0 servedAt := by
  have hrun : (runFrom CacheSystem.step (fun s input => s.undisturbed input = true)
      (CacheSystem.init sampleMoves 0)
      ([.mutate sampleMove, .call sampleModerator (some 11), .loadChannel 0, .loadGuild 0]
        ++ sampleCalculation 0 ++ sampleHit 1)).bind (servedMask · 1) = some 0 := by
    decide +kernel
  obtain ⟨s₁, hrun, hserved⟩ := Option.bind_eq_some_iff.mp hrun
  obtain ⟨q, rows, servedAt, hq, hstage⟩ := exists_of_servedMask hserved
  exact ⟨s₁, q, rows, servedAt, Exec.of_runFrom hrun, hq, hstage,
    served_masks_current ⟨by decide, by decide⟩ (Exec.of_runFrom hrun) hq hstage⟩

/-- A guild whose last state denies a member what was served cannot have
been current, if the member has no timeout. -/
theorem not_current {s : CacheSystem} {q : PermissionRequest} {rows : Loaded}
    {member : GuildMember} {permissions now servedAt : Nat} (hsince : q.since = s.present)
    (hmember : s.guild.member? q.actor = some member) (hdeadline : member.timeoutUntil = none)
    (hdenied : s.guild.permissionsAt q.actor q.scope now ≠ .ok permissions) :
    ¬ Current s.history q rows permissions servedAt := by
  rintro ⟨-, k, g, member', t, hk, hg, -, -, -, hmask, -, -⟩
  have hlast : k = s.present := by
    have hlt := (List.getElem?_eq_some_iff.mp hg).1
    rw [history_length] at hlt
    omega
  subst hlast
  obtain rfl : s.guild = g := Option.some.inj ((history_present s).symm.trans hg)
  refine hdenied (Eq.trans (permissionsAt_time ?_) hmask)
  intro m hm
  rw [hmember] at hm
  obtain rfl := Option.some.inj hm
  rw [GuildMember.timedOut, GuildMember.timedOut, hdeadline]
  rfl

/-- The channel is moved after a request has read its row and before it
reads the guild's: the mask of the old category is stored under the new
generation, and a request that comes later is served it. -/
theorem old_category_served_after_move : ∃ s₁ q rows servedAt,
    Exec CacheSystem.step Always (CacheSystem.init sampleMoves 0)
      ([.call sampleModerator (some 11), .loadChannel 0, .mutate sampleMove, .loadGuild 0]
        ++ sampleCalculation 0 ++ sampleHit 1) s₁ ∧
    s₁.requests[1]? = some q ∧ q.stage = .served rows viewChannel servedAt ∧
    ¬ Current s₁.history q rows viewChannel servedAt := by
  have hrun : (runFrom CacheSystem.step Always (CacheSystem.init sampleMoves 0)
      ([.call sampleModerator (some 11), .loadChannel 0, .mutate sampleMove, .loadGuild 0]
        ++ sampleCalculation 0 ++ sampleHit 1)).map (fun s =>
          (servedMask s 1, (s.requests[1]?).map fun q =>
            (decide (q.since = s.present), s.guild.member? q.actor,
              (s.guild.permissionsAt q.actor q.scope 0).toOption)))
      = some (some viewChannel, some (true, some (sampleMember sampleModerator), some 0)) := by
    decide +kernel
  obtain ⟨s₁, hrun, hfacts⟩ := Option.map_eq_some_iff.mp hrun
  rw [Prod.mk.injEq] at hfacts
  obtain ⟨hserved, hstate⟩ := hfacts
  obtain ⟨q, rows, servedAt, hq, hstage⟩ := exists_of_servedMask hserved
  rw [hq, Option.map_some, Option.some.injEq, Prod.mk.injEq, Prod.mk.injEq, decide_eq_true_eq]
    at hstate
  obtain ⟨hsince, hmember, hmask⟩ := hstate
  have hdenied : s₁.guild.permissionsAt q.actor q.scope 0 ≠ .ok viewChannel := by
    rw [toOption_eq_some.mp hmask]
    decide
  exact ⟨s₁, q, rows, servedAt, Exec.of_runFrom hrun, hq, hstage,
    not_current hsince hmember rfl hdenied⟩

end Kaede
