import LowPower.Spec.Interface

/-!
# The shell commands of LPMS

The `pms_*` commands of `lpms_drv.c`. A command line arrives as the numbers `atoi` makes of its
arguments, without the name of the command; each number is a C `int` and is converted to the
parameter type of the function it is given to.
-/

namespace LowPower

/-- A C `int`, or a `long` of the 32-bit target. -/
abbrev CInt := BitVec 32

/-- The commands of `lpms_drv.c` that call the interface. -/
inductive Shell where
  | pmsSleepRequest
  | pmsSleepRelease
  | pmsFreqRequest
  | pmsFreqRelease
  | pmsBusySet
  | pmsBusyClear
  | pmsEnableCtrl
deriving DecidableEq, Repr

namespace World

variable {c : Config} {X : Type}

/-- A command that takes a module and a mode; nothing is called on a shorter line. -/
def voteCommand (f : U16 → U8 → World c X → World c X) (args : List CInt) (w : World c X) :
    World c X :=
  match args with
  | module :: mode :: _ => f (module.setWidth 16) (mode.setWidth 8) w
  | _ => w

def pmsSleepRequest (args : List CInt) (w : World c X) := voteCommand pmSleepRequest args w
def pmsSleepRelease (args : List CInt) (w : World c X) := voteCommand pmSleepRelease args w
def pmsFreqRequest (args : List CInt) (w : World c X) := voteCommand pmFreqRequest args w
def pmsFreqRelease (args : List CInt) (w : World c X) := voteCommand pmFreqRelease args w

def pmsBusySet (args : List CInt) (w : World c X) : World c X :=
  match args with
  | module :: time :: _ => w.pmBusySet (module.setWidth 16) time
  | _ => w

def pmsBusyClear (args : List CInt) (w : World c X) : World c X :=
  match args with
  | module :: _ => w.pmBusyClear (module.setWidth 16)
  | [] => w

def pmsEnableCtrl (args : List CInt) (w : World c X) : World c X :=
  match args with
  | flag :: _ => if flag ≠ 0 then w.lpmsEnable else w.lpmsDisable
  | [] => w

def shell (w : World c X) (cmd : Shell) (args : List CInt) : World c X :=
  match cmd with
  | .pmsSleepRequest => w.pmsSleepRequest args
  | .pmsSleepRelease => w.pmsSleepRelease args
  | .pmsFreqRequest => w.pmsFreqRequest args
  | .pmsFreqRelease => w.pmsFreqRelease args
  | .pmsBusySet => w.pmsBusySet args
  | .pmsBusyClear => w.pmsBusyClear args
  | .pmsEnableCtrl => w.pmsEnableCtrl args

end World
end LowPower
