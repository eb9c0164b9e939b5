import ServingPlane.Backend
import ServingPlane.Container.Launch

/-! # The container engine

    The life of a container as the scheduler sees it: its image is made
    present, it is created, started, looked at, and stopped. -/

namespace ServingPlane

/-- What a container engine is asked. -/
inductive EngineCall : Type → Type where
  /-- Fetch an image unless it is present. -/
  | ensureImage (image : String) : EngineCall (Except BackendError Unit)
  /-- Create a container without starting it; answers its id. -/
  | create (launch : ContainerLaunch) : EngineCall (Except BackendError String)
  | start (id : String) : EngineCall (Except BackendError Unit)
  /-- Stop and remove a container; one that is gone counts as removed. -/
  | stopAndRemove (id : String) : EngineCall (Except BackendError Unit)
  /-- Name and status of a container; nothing if it is gone. -/
  | inspect (id : String) : EngineCall (Except BackendError (Option RuntimeInstance))

end ServingPlane
