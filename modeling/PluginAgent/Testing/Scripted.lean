import PluginAgent.Plugin.Loader

namespace PluginAgent.Testing

inductive Action where
  | transform (target interceptor : String)
  | inject (name : String)
  | tryTransform (target interceptor : String)
  | tryInject (name : String)
  | resource (path : String)
  | delete (path : String)
  | fail (message : String)
  | unavailable (message : String)
  | panic (message : String)
  deriving DecidableEq, Repr

namespace Action

def script (i : Injector) : Action → PluginScript
  | transform target interceptor => .transform target interceptor .done
  | inject name => .inject name .done
  | tryTransform target interceptor => .transform target interceptor fun _ => .done (.ok ())
  | tryInject name => .inject name fun _ => .done (.ok ())
  | resource path => .resource path fun r => .done (r.map fun _ => ())
  | delete path => .change (·.remove path) (.done (.ok ()))
  | fail message => .done (.error (.setupFailed i.plugin.text message))
  | unavailable message => .done (.error (.archiveUnavailable i.archive (.stated message)))
  | panic message => .panic (some message)

def answer (i : Injector) (w : World Unit) : Action → Option ByteArray
  | resource path => (i.resource w.spaces w.disk path).toOption
  | _ => none

end Action

def followedBy : PluginScript → PluginScript → PluginScript
  | .done (.ok ()), s => s
  | .done (.error e), _ => .done (.error e)
  | .panic m, _ => .panic m
  | .transform target interceptor next, s =>
      .transform target interceptor fun r => followedBy (next r) s
  | .inject name next, s => .inject name fun r => followedBy (next r) s
  | .resolve space name next, s => .resolve space name fun r => followedBy (next r) s
  | .resource path next, s => .resource path fun r => followedBy (next r) s
  | .inScope name next, s => .inScope name fun r => followedBy (next r) s
  | .look next, s => .look fun d => followedBy (next d) s
  | .change f next, s => .change f (followedBy next s)

def scripted (actions : List Action) : Plugin := fun i =>
  actions.foldr (fun a rest => followedBy (a.script i) rest) (.done (.ok ()))

def failing : Plugin :=
  scripted [.fail "configured to fail"]

def transforming (transformers : List (String × String)) (helpers : List String) : Plugin :=
  scripted (transformers.map (fun t => .transform t.1 t.2) ++ helpers.map .inject)

def attempt (c : Context) (a : Action) (w : World Unit) :
    Outcome PluginError (Option ByteArray × Context) × World Unit :=
  match ((a.script c.injector).within c).run c.injector w with
  | (.ok c', after) => (.ok (a.answer c.injector w, c'), after)
  | (.error e, after) => (.error e, after)
  | (.panic m, after) => (.panic m, after)

def deleteFile (path : String) (d : Disk) : Disk :=
  match d.removeFile path with
  | .ok d => d
  | .error _ => d

def recordingSetup (deleteAfter : List String) : Setup (List String) := fun plugin i =>
  .keep (· ++ [i.plugin.text]) ((Setup.standard plugin i).andThen fun r =>
    if deleteAfter.contains i.plugin.text then .change (deleteFile i.archive) (.done r)
    else .done r)

end PluginAgent.Testing
