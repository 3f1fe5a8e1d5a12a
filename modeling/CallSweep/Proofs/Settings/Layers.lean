/-
  Which layer of settings has the say.

  Up to four layers lie on one another: the user's file, the project's file, the file that is asked
  for and the arguments.  They are merged one by one while they are read.

  1. **Fields** (`Settings.get`) — the seven fields under one roof, so that what holds of each is
     said once.

  2. **Stacks** (`Settings.get_stack`) — in a stack of layers the highest that sets a field has the
     say.  Merging is associative, so it does not matter how the layers are grouped
     (`Settings.stack_append`).

  3. **Files** (`Settings.layer`) — a file that need not be there sets nothing if it cannot be read
     or is not in order.

  4. **Loading** (`Settings.load_looks`) — loading gives the stack of the files' layers and leaves
     the disk as it is; the file that is asked for can make it fail, and is the only one that can.

  5. **Precedence** (`Program.configure_precedence`) — all of it together.
-/
import CallSweep.Command.Program
import CallSweep.Proofs.Disk.Calls
import CallSweep.Proofs.Run.Scripts

namespace CallSweep

open Script (Gives)

/-! ## Fields -/

namespace Settings

/-- What a field holds. -/
abbrev Field.Value : Field → Type
  | .callees | .extensions | .skipDirs => List String
  | .maxDepth | .maxFileSize => Nat
  | .dryRun | .atomicWrite => Bool

/-- What a layer sets a field to, if it sets it. -/
def get (s : Settings) : (f : Field) → Option f.Value
  | .callees => s.callees
  | .extensions => s.extensions
  | .maxDepth => s.maxDepth
  | .maxFileSize => s.maxFileSize
  | .dryRun => s.dryRun
  | .atomicWrite => s.atomicWrite
  | .skipDirs => s.skipDirs

/-- What becomes of a value when it is put in force: names are trimmed. -/
def Field.tidy : (f : Field) → f.Value → f.Value
  | .callees | .extensions | .skipDirs => nonBlank
  | .maxDepth | .maxFileSize | .dryRun | .atomicWrite => id

end Settings

/-- What a configuration has in a field. -/
def Config.get (c : Config) : (f : Settings.Field) → f.Value
  | .callees => c.callees
  | .extensions => c.extensions
  | .maxDepth => c.maxDepth
  | .maxFileSize => c.maxFileSize
  | .dryRun => c.dryRun
  | .atomicWrite => c.atomicWrite
  | .skipDirs => c.skipDirs

namespace Settings

/-- Layers that set the same are the same. -/
theorem ext_get {s t : Settings} (same : ∀ f, s.get f = t.get f) : s = t := by
  cases s
  cases t
  simp only [Settings.mk.injEq]
  exact ⟨same .callees, same .extensions, same .maxDepth, same .maxFileSize, same .dryRun,
    same .atomicWrite, same .skipDirs⟩

@[simp] theorem get_empty (f : Field) : empty.get f = none := by cases f <;> rfl

@[simp] theorem get_merge (lower upper : Settings) (f : Field) :
    (lower.merge upper).get f = (upper.get f).or (lower.get f) := by
  cases f <;> exact Option.orElse_eq_or

theorem get_complete (s : Settings) (f : Field) :
    s.complete.get f = f.tidy ((s.get f).getD (Config.standard.get f)) := by
  cases f <;> rfl

/-! ## Stacks -/

theorem merge_assoc (a b c : Settings) : (a.merge b).merge c = a.merge (b.merge c) := by
  refine ext_get fun f => ?_
  simp only [get_merge, Option.or_assoc]

/-- Layers on one another, the highest first. -/
def stack (layers : List Settings) : Settings :=
  layers.foldr (fun upper lower => lower.merge upper) empty

@[simp] theorem stack_nil : stack [] = empty := rfl

@[simp] theorem stack_cons (upper : Settings) (layers : List Settings) :
    stack (upper :: layers) = (stack layers).merge upper := rfl

/-- Some layers may as well be put together first, and then be laid on the others. -/
theorem stack_append (upper lower : List Settings) :
    stack (upper ++ lower) = (stack lower).merge (stack upper) := by
  induction upper with
  | nil => exact (merge_empty _).symm
  | cons s upper ih => rw [List.cons_append, stack_cons, stack_cons, ih, merge_assoc]

/-- The highest layer that sets a field has the say. -/
theorem get_stack (layers : List Settings) (f : Field) :
    (stack layers).get f = layers.findSome? (·.get f) := by
  induction layers with
  | nil => exact get_empty f
  | cons s layers ih =>
    rw [stack_cons, get_merge, ih, List.findSome?_cons]
    cases s.get f <;> rfl

/-! ## Files -/

/-- The text of a file, or why it has none. -/
def textOf (d : Disk) (cwd : Place) (p : Path) : Except Unreadable String :=
  match d.read cwd p with
  | .error e => .error (.system e)
  | .ok bytes =>
    match String.fromUTF8? bytes with
    | some text => .ok text
    | none => .error .notText

/-- What a file sets that need not be there or be in order. -/
def layer (d : Disk) (cwd : Place) (p : Path) : Settings :=
  match textOf d cwd p with
  | .error _ => empty
  | .ok text =>
    match ofText text with
    | .ok s => s
    | .error _ => empty

/-- What is read from a file that must be there and be in order. -/
def fromFile (d : Disk) (cwd : Place) (p : Path) : Except LoadError Settings :=
  match textOf d cwd p with
  | .error cause => .error (.unreadable p cause)
  | .ok text => (ofText text).mapError (.malformed p)

section

variable {d : Disk} {cwd : Place} {p : Path}

theorem fromFile_of_unreadable {cause : Unreadable} (unread : textOf d cwd p = .error cause) :
    fromFile d cwd p = .error (.unreadable p cause) := by
  rw [fromFile, unread]

theorem fromFile_of_malformed {text : String} {e : Yaml.Error} (read : textOf d cwd p = .ok text)
    (bad : ofText text = .error e) : fromFile d cwd p = .error (.malformed p e) := by
  rw [fromFile, read]
  show (ofText text).mapError _ = _
  rw [bad]
  rfl

theorem fromFile_of_text {text : String} {s : Settings} (read : textOf d cwd p = .ok text)
    (good : ofText text = .ok s) : fromFile d cwd p = .ok (layer d cwd p) := by
  have sets : layer d cwd p = s := by
    rw [layer, read]
    show (match ofText text with | .ok s => s | .error _ => empty) = s
    rw [good]
  rw [fromFile, read, sets]
  show (ofText text).mapError _ = _
  rw [good]
  rfl

theorem fromFile_of_read {bytes : ByteArray} (read : d.read cwd p = .ok bytes) :
    fromFile d cwd p = ofBytes p bytes := by
  rw [fromFile, textOf, read, ofBytes]
  dsimp only
  cases String.fromUTF8? bytes <;> rfl

/-- A file that gives no settings is a layer that sets nothing. -/
theorem layer_eq (d : Disk) (cwd : Place) (p : Path) :
    layer d cwd p = match fromFile d cwd p with
      | .ok s => s
      | .error _ => empty := by
  unfold layer fromFile
  cases textOf d cwd p with
  | error cause => rfl
  | ok text => cases bad : ofText text <;> simp [bad, Except.mapError]

/-- What is not there cannot be read. -/
theorem layer_of_not_stat {e : OsError} (gone : d.stat cwd p = .error e) :
    layer d cwd p = empty := by
  have lost : d.find cwd p = .error e := by
    cases found : d.find cwd p with
    | error e' =>
      rw [Disk.stat, found] at gone
      cases gone
      rfl
    | ok place =>
      obtain ⟨x, entry⟩ := place
      rw [Disk.stat, found] at gone
      cases entry <;> cases gone
  have unread : textOf d cwd p = .error (.system e) := by
    rw [textOf, Disk.read, lost]
    rfl
  rw [layer, unread]

end

end Settings

/-! ## Loading -/

/-- The script finds the disk `d`, gives `a`, is not refused anything and leaves the disk as it
    is. -/
abbrev Script.Looks {α : Type} (h : Host) (d : Disk) (s : Script α) (a : α) : Prop :=
  Gives h (· = d) ∅ (fun result d' => result = a ∧ d' = d) s d

namespace Script.Looks

variable {α β : Type} {h : Host} {d : Disk} {a : α} {b : β}

theorem done : Looks h d (.done a) a := Gives.done ⟨rfl, rfl⟩

theorem look {r : Request} {next : r.Answer → Script α} {answer : r.Answer}
    (free : World.refusal h r = none)
    (answered : ∀ w : World, w.disk = d → w.answer h r = (answer, w))
    (rest : Looks h d (next answer) a) : Looks h d (.ask r next) a := by
  refine Gives.look free fun w same _ => ⟨answer, answered w same, ?_⟩
  rw [same]
  exact rest

theorem note {e : LogEvent} {next : Unit → Script α} (rest : Looks h d (next ()) a) :
    Looks h d (.ask (.note (.event e)) next) a := by
  refine Gives.pass rfl (fun _ => rfl) fun _ d' same _ => ?_
  rw [same]
  exact rest

theorem bind {s : Script α} {f : α → Script β} (first : Looks h d s a)
    (second : Looks h d (f a) b) : Looks h d (s.bind f) b := by
  refine Gives.bind first rfl ?_
  rintro a' d' - ⟨rfl, rfl⟩
  exact second

theorem runScript {s : Script α} {w : World} (looks : Looks h w.disk s a) :
    (World.runScript h s w).1 = .ok a ∧ (World.runScript h s w).2.disk = w.disk := by
  obtain ⟨a', result, rfl, same⟩ := Gives.runScript looks rfl
  exact ⟨result, same⟩

end Script.Looks

open Script (Looks)

namespace Settings

variable {h : Host} {d : Disk}

theorem loadFile_looks (p : Path) : Looks h d (loadFile p) (fromFile d h.cwd p) := by
  unfold loadFile
  cases read : d.read h.cwd p with
  | error e =>
    have answered : ∀ w : World, w.disk = d → w.answer h (.read p) = (.error e, w) := by
      rintro w rfl
      exact congrArg (·, w) read
    refine .look rfl answered ?_
    rw [fromFile, textOf, read]
    exact .done
  | ok bytes =>
    have answered : ∀ w : World, w.disk = d → w.answer h (.read p) = (.ok bytes, w) := by
      rintro w rfl
      exact congrArg (·, w) read
    refine .look rfl answered ?_
    rw [fromFile_of_read read]
    exact .done

theorem loadLayer_looks (p : Path) : Looks h d (loadLayer p) (layer d h.cwd p) := by
  unfold loadLayer
  have answered : ∀ w : World, w.disk = d → w.answer h (.stat p) = (d.stat h.cwd p, w) := by
    rintro w rfl
    rfl
  refine .look rfl answered ?_
  cases stat : d.stat h.cwd p with
  | error e =>
    rw [layer_of_not_stat stat]
    exact .done
  | ok _ =>
    refine (loadFile_looks p).bind ?_
    rw [layer_eq]
    cases fromFile d h.cwd p with
    | ok s => exact .done
    | error e => exact .note .done

theorem loadImplicit_looks (user project : Path) :
    Looks h d (loadImplicit user project) (stack [layer d h.cwd project, layer d h.cwd user]) := by
  have merged : stack [layer d h.cwd project, layer d h.cwd user] =
      (layer d h.cwd user).merge (layer d h.cwd project) := by
    rw [stack_cons, stack_cons, stack_nil, empty_merge]
  rw [merged]
  exact (loadLayer_looks user).bind ((loadLayer_looks project).bind .done)

/-- The layer of the file that is asked for, if one is. -/
def explicitLayer (d : Disk) (cwd : Place) (conf : Option Path) : Settings :=
  (conf.map (layer d cwd)).getD empty

/-- The layers of the files, the highest first. -/
def fileLayers (d : Disk) (here : Place) (env : Environment) (cwd : Path) (conf : Option Path) :
    List Settings :=
  [explicitLayer d here conf, layer d here (projectPath cwd), layer d here (userPath env)]

/-- What loading comes to: the file that is asked for has to be there and in order. -/
def loaded (d : Disk) (here : Place) (env : Environment) (cwd : Path) :
    Option Path → Except LoadError Settings
  | none => .ok (stack (fileLayers d here env cwd none))
  | some p => (fromFile d here p).map fun _ => stack (fileLayers d here env cwd (some p))

theorem load_looks (env : Environment) (cwd : Path) (conf : Option Path) :
    Looks h d (load env cwd conf) (loaded d h.cwd env cwd conf) := by
  refine (loadImplicit_looks (userPath env) (projectPath cwd)).bind ?_
  cases conf with
  | none =>
    have nothing : stack (fileLayers d h.cwd env cwd none) =
        stack [layer d h.cwd (projectPath cwd), layer d h.cwd (userPath env)] := merge_empty _
    rw [loaded, nothing]
    exact .done
  | some p =>
    refine (loadFile_looks p).bind ?_
    have something : fileLayers d h.cwd env cwd (some p) = layer d h.cwd p ::
      [layer d h.cwd (projectPath cwd), layer d h.cwd (userPath env)] := rfl
    rw [loaded, something, stack_cons, layer_eq d h.cwd p]
    cases fromFile d h.cwd p with
    | error e => exact .done
    | ok s => exact .done

end Settings

/-! ## Arguments -/

/-- What the arguments come to on top of other settings: a list replaces the one below, a flag turns
    the dry run on and the finished copies off and does nothing else. -/
structure Options.Overlaid (o : Options) (lower whole : Settings) : Prop where
  callees : whole.callees = if o.callees = [] then lower.callees else some o.callees
  extensions : whole.extensions = if o.extensions = [] then lower.extensions else some o.extensions
  skipDirs : whole.skipDirs = if o.skipDirs = [] then lower.skipDirs else some o.skipDirs
  maxDepth : whole.maxDepth = o.maxDepth.or lower.maxDepth
  maxFileSize : whole.maxFileSize = lower.maxFileSize
  dryRun : whole.complete.dryRun = (o.dryRun || lower.complete.dryRun)
  atomicWrite : whole.complete.atomicWrite = (!o.noAtomic && lower.complete.atomicWrite)

namespace Options

theorem nonEmpty?_orElse (names : List String) (below : Option (List String)) :
    (nonEmpty? names <|> below) = if names = [] then below else some names := by
  cases names <;> rfl

theorem overlaid (o : Options) (lower : Settings) : o.Overlaid lower (lower.merge o.overlay) where
  callees := nonEmpty?_orElse o.callees lower.callees
  extensions := nonEmpty?_orElse o.extensions lower.extensions
  skipDirs := nonEmpty?_orElse o.skipDirs lower.skipDirs
  maxDepth := Option.orElse_eq_or
  maxFileSize := rfl
  dryRun := by
    simp only [Settings.complete, Settings.merge, overlay]
    cases o.dryRun <;> rfl
  atomicWrite := by
    simp only [Settings.complete, Settings.merge, overlay]
    cases o.noAtomic <;> rfl

end Options

/-! ## Precedence -/

namespace Program

open Settings

variable {h : Host} {d : Disk}

theorem configure_looks (env : Environment) (cwd : Path) (o : Options) :
    Looks h d (configure env cwd o) (match loaded d h.cwd env cwd o.conf with
      | .error e => .error (.load e)
      | .ok s => (s.merge o.overlay).resolve.mapError .invalid) := by
  refine (load_looks env cwd o.conf).bind ?_
  cases loaded d h.cwd env cwd o.conf with
  | error e => exact .done
  | ok s => exact .done

/-- **Precedence.**  A file that is asked for and cannot be read, or is not in order, makes loading
    fail, whatever the other layers are.  Nothing else does: the configuration is then resolved from
    a stack of layers, in which the highest that sets a field has the say, the arguments over the
    file that is asked for, that over the project's file and that over the user's, and the standard
    configuration where none of them sets it. -/
theorem configure_precedence (env : Environment) (cwd : Path) (o : Options) (h : Host) (w : World) :
    (∀ p cause, o.conf = some p → textOf w.disk h.cwd p = .error cause →
      (World.runScript h (load env cwd o.conf) w).1 = .ok (.error (.unreadable p cause)) ∧
      (World.runScript h (configure env cwd o) w).1 =
        .ok (.error (.load (.unreadable p cause)))) ∧
    (∀ p text e, o.conf = some p → textOf w.disk h.cwd p = .ok text → ofText text = .error e →
      (World.runScript h (load env cwd o.conf) w).1 = .ok (.error (.malformed p e)) ∧
      (World.runScript h (configure env cwd o) w).1 = .ok (.error (.load (.malformed p e)))) ∧
    ((∀ p, o.conf = some p → ∃ text s, textOf w.disk h.cwd p = .ok text ∧ ofText text = .ok s) →
      (World.runScript h (load env cwd o.conf) w).1 =
        .ok (.ok (stack (fileLayers w.disk h.cwd env cwd o.conf))) ∧
      (World.runScript h (configure env cwd o) w).1 =
        .ok ((stack (o.overlay :: fileLayers w.disk h.cwd env cwd o.conf)).resolve.mapError
          .invalid)) ∧
    (∀ layers : List Settings, layers = o.overlay :: fileLayers w.disk h.cwd env cwd o.conf →
      o.Overlaid (stack layers.tail) (stack layers) ∧
      ∀ f, (stack layers).get f = layers.findSome? (·.get f) ∧
        (stack layers).complete.get f =
          f.tidy ((layers.findSome? (·.get f)).getD (Config.standard.get f))) ∧
    (∀ a b c : Settings, (a.merge b).merge c = a.merge (b.merge c) ∧ empty.merge a = a ∧
      a.merge empty = a) := by
  have loads := (load_looks (d := w.disk) (h := h) env cwd o.conf).runScript.1
  have configures := (configure_looks (d := w.disk) (h := h) env cwd o).runScript.1
  refine ⟨?_, ?_, ?_, ?_, fun a b c => ⟨merge_assoc a b c, empty_merge a, merge_empty a⟩⟩
  · intro p cause asked unread
    have failed : loaded w.disk h.cwd env cwd o.conf = .error (.unreadable p cause) := by
      rw [asked, loaded, fromFile_of_unreadable unread]
      rfl
    rw [loads, configures, failed]
    exact ⟨rfl, rfl⟩
  · intro p text e asked read bad
    have failed : loaded w.disk h.cwd env cwd o.conf = .error (.malformed p e) := by
      rw [asked, loaded, fromFile_of_malformed read bad]
      rfl
    rw [loads, configures, failed]
    exact ⟨rfl, rfl⟩
  · intro good
    have stacked : loaded w.disk h.cwd env cwd o.conf =
        .ok (stack (fileLayers w.disk h.cwd env cwd o.conf)) := by
      cases conf : o.conf with
      | none => rfl
      | some p =>
        obtain ⟨text, s, read, sets⟩ := good p conf
        rw [loaded, fromFile_of_text read sets]
        rfl
    rw [loads, configures, stacked]
    exact ⟨rfl, rfl⟩
  · rintro layers rfl
    refine ⟨o.overlaid _, fun f => ⟨get_stack _ f, ?_⟩⟩
    rw [get_complete, get_stack]

end Program

/-! ### A file that is asked for -/

namespace AskedFile

def cYaml : Name := ⟨[0x63, 0x2e, 0x79, 0x61, 0x6d, 0x6c], by decide⟩

/-- There is only the file `/c.yaml`, which turns the dry run on. -/
def disk : Disk where
  entries := [([cYaml], .file 0)]
  inode _ := ⟨"dry_run: true\n".toUTF8, 0o644⟩
  nodup := by decide

/-- The arguments ask for `/c.yaml` and name a callee. -/
def options : Options := { Options.none with callees := ["log"], conf := some (Place.path [cYaml]) }

def env : Environment := ⟨none, none, none⟩

/-- The callee is that of the arguments and the dry run that of the file. -/
theorem configure_precedence_asked_file :
    ∃ s : Settings,
      (World.runScript (.quiet []) (Program.configure env (Place.path []) options)
        (.start disk)).1 = .ok (s.resolve.mapError .invalid) ∧
      s.get .callees = some ["log"] ∧ s.get .dryRun = some true := by
  have check : Disk.checkPath (Place.path [cYaml]) = .ok () :=
    Disk.checkPath_eq_ok_iff.2 (by decide)
  have rooted : disk.Rooted ([] ++ [cYaml]) := Disk.Rooted.nil.concat rfl (by decide)
  have names : disk.Names [] (Place.path [cYaml]) ([] ++ [cYaml]) := by
    refine .of_rooted rooted (List.cons_ne_nil _ _) (fun target link => ?_) check
    cases link
  have bytes : disk.read [] (Place.path [cYaml]) = .ok "dry_run: true\n".toUTF8 :=
    names.read_file rfl
  have text : Settings.textOf disk [] (Place.path [cYaml]) = .ok "dry_run: true\n" := by
    rw [Settings.textOf, bytes]
    decide +kernel
  have sets : Settings.ofText "dry_run: true\n" =
      .ok { Settings.empty with dryRun := some true } := by decide +kernel
  obtain ⟨-, -, runs, highest, -⟩ :=
    Program.configure_precedence env (Place.path []) options (.quiet []) (.start disk)
  have good : ∀ p, options.conf = some p → ∃ text s,
      Settings.textOf disk [] p = .ok text ∧ Settings.ofText text = .ok s := by
    rintro p ⟨⟩
    exact ⟨_, _, text, sets⟩
  obtain ⟨-, fields⟩ := highest _ rfl
  have asked : Settings.layer disk [] (Place.path [cYaml]) =
      { Settings.empty with dryRun := some true } := by
    rw [Settings.layer, text]
    dsimp only
    rw [sets]
  have files : Settings.fileLayers disk [] env (Place.path []) options.conf =
      { Settings.empty with dryRun := some true } ::
        [Settings.layer disk [] (Settings.projectPath (Place.path [])),
          Settings.layer disk [] (Settings.userPath env)] := by
    rw [← asked]
    rfl
  refine ⟨_, (runs good).2, (fields .callees).1, (fields .dryRun).1.trans ?_⟩
  -- the arguments leave the field to the file
  show List.findSome? _ (options.overlay :: Settings.fileLayers disk [] env _ options.conf) = _
  rw [files]
  rfl

end AskedFile

end CallSweep
