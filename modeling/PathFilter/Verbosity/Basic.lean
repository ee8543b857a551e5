import PathFilter.Verbosity.Flag

/-!
# Verbosity

A verbosity gives every flag a level between 0 and 255. A diagnostic is wanted if its flag has at
least its level.

## Main definitions

* `Verbosity`: the levels of all flags
* `Verbosity.level`, `Verbosity.set`: the level of one flag
* `Verbosity.ofCount n`: the verbosity that is asked for `n` times
* `Verbosity.admits`: whether a diagnostic is wanted

## Main results

* `Verbosity.level_set`: setting a flag changes its level and no other
* `Verbosity.level_setAll`: setting a family changes the levels of its flags and no others
-/

namespace PathFilter

/-- The levels of the info flags. -/
structure InfoLevels where
  del : UInt8
  name : UInt8
  skip : UInt8
  stats : UInt8
deriving DecidableEq, Repr

/-- The levels of the debug flags. -/
structure DebugLevels where
  del : UInt8
  filter : UInt8
  flist : UInt8
deriving DecidableEq, Repr

/-- **The levels of all flags.** -/
structure Verbosity where
  info : InfoLevels
  debug : DebugLevels
deriving DecidableEq, Repr

namespace Verbosity

/-- All flags at level 0. -/
def silent : Verbosity := ⟨⟨0, 0, 0, 0⟩, ⟨0, 0, 0⟩⟩

/-- The level of a flag. -/
def level (v : Verbosity) : Flag → UInt8
  | .info .del => v.info.del
  | .info .name => v.info.name
  | .info .skip => v.info.skip
  | .info .stats => v.info.stats
  | .debug .del => v.debug.del
  | .debug .filter => v.debug.filter
  | .debug .flist => v.debug.flist

/-- The verbosity with one flag at another level. -/
def set (v : Verbosity) (flag : Flag) (l : UInt8) : Verbosity :=
  match flag with
  | .info .del => { v with info := { v.info with del := l } }
  | .info .name => { v with info := { v.info with name := l } }
  | .info .skip => { v with info := { v.info with skip := l } }
  | .info .stats => { v with info := { v.info with stats := l } }
  | .debug .del => { v with debug := { v.debug with del := l } }
  | .debug .filter => { v with debug := { v.debug with filter := l } }
  | .debug .flist => { v with debug := { v.debug with flist := l } }

/-- The verbosity with all flags of a family at one level. -/
def setAll (v : Verbosity) (f : Family) (l : UInt8) : Verbosity :=
  (Flag.ofFamily f).foldl (fun v flag => v.set flag l) v

/-- Setting a flag changes its level and no other. -/
theorem level_set (v : Verbosity) (flag other : Flag) (l : UInt8) :
    (v.set flag l).level other = if other = flag then l else v.level other := by
  rcases flag with (_ | _ | _ | _) | (_ | _ | _) <;>
    rcases other with (_ | _ | _ | _) | (_ | _ | _) <;> simp [set, level]

/-- Setting a family changes the levels of its flags and no others. -/
theorem level_setAll (v : Verbosity) (f : Family) (l : UInt8) (flag : Flag) :
    (v.setAll f l).level flag = if flag.family = f then l else v.level flag := by
  cases f <;> rcases flag with (_ | _ | _ | _) | (_ | _ | _) <;> rfl

/-- **The verbosity that is asked for a number of times.** Each time adds to the one before, up to
the fourth. -/
def ofCount : Nat → Verbosity
  | 0 => silent
  | 1 => ⟨⟨1, 1, 0, 1⟩, ⟨0, 0, 0⟩⟩
  | 2 => ⟨⟨1, 2, 1, 1⟩, ⟨1, 1, 1⟩⟩
  | 3 => ⟨⟨1, 2, 1, 1⟩, ⟨2, 2, 2⟩⟩
  | _ => ⟨⟨1, 2, 1, 1⟩, ⟨3, 2, 3⟩⟩

/-- Whether diagnostics of a flag and a level are wanted. -/
def admits (v : Verbosity) (flag : Flag) (l : UInt8) : Bool := l ≤ v.level flag

end Verbosity

end PathFilter
